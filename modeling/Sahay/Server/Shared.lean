import Mathlib.Data.Rat.Floor
import Sahay.Server.Schema

/-!
# Shared pure functions

What the server takes from `packages/shared/src` (coarsening and distance
buckets of `geo.ts`, `pseudonyms.ts`, the scores of `reliability.ts`) and the
redaction of `lib/redact.ts`.  Scores are exact rationals.
-/

namespace Sahay

/-! ## `geo.ts` -/

/-- `Math.round`: halves go up. -/
def round (x : ℚ) : ℤ := ⌊x + 1 / 2⌋

/-- Round coordinates to `locationPrecisionDecimals`. -/
def coarsen (coords : Coords) : Coords :=
  let f : ℚ := 10 ^ Limits.locationPrecisionDecimals
  { lat := round (coords.lat * f) / f
    lng := round (coords.lng * f) / f }

def bucketForDistanceM : Option ℚ → ProximityBucket
  | none => .unknown
  | some d =>
      if d ≤ 150 then .veryNearby
      else if d ≤ 400 then .nearby
      else if d ≤ 1000 then .shortWalk
      else .farther

/-! ## `pseudonyms.ts` -/

def pseudonymAdjectives : List String :=
  ["Blue", "Green", "Silver", "Quiet", "Amber", "Coral", "Golden", "Misty",
   "Violet", "Crimson", "Gentle", "Bright", "Calm", "Swift", "Mellow", "Sunny",
   "Teal", "Ivory", "Copper", "Dusty", "Emerald", "Hazel", "Indigo", "Jade",
   "Lively", "Maroon", "Noble", "Olive", "Pearl", "Rosy", "Sandy", "Tranquil"]

def pseudonymNouns : List String :=
  ["Sparrow", "Mango", "River", "Lantern", "Cedar", "Lotus", "Falcon", "Meadow",
   "Pebble", "Cloud", "Harbor", "Willow", "Comet", "Fern", "Heron", "Island",
   "Jasmine", "Kite", "Lake", "Maple", "Nutmeg", "Orchid", "Pine", "Quill",
   "Reed", "Saffron", "Tamarind", "Umbrella", "Valley", "Wren", "Yak", "Zephyr"]

def pseudonymFromIndexes (adjIdx nounIdx : ℕ) : String :=
  pseudonymAdjectives.getD (adjIdx % pseudonymAdjectives.length) "" ++ " " ++
    pseudonymNouns.getD (nounIdx % pseudonymNouns.length) ""

/-! ## `reliability.ts` -/

namespace ReliabilityCounters

variable (c : ReliabilityCounters)

def completionScore : ℚ :=
  let bad : ℚ := c.cancelledPostMeeting + c.timeouts + c.noShows
  let trials : ℚ := c.completed + c.cancelledPreMeeting * (1 / 4) + bad
  (c.completed + 2) / (trials + 4)

def responsivenessScore : ℚ :=
  if c.offersReceived30d < 3 then 7 / 10
  else c.offersResponded30d / c.offersReceived30d

def reliabilityLabel : ReliabilityLabel :=
  if c.completed < 3 then .newHelper
  else if 20 ≤ c.completed ∧ 85 / 100 ≤ c.completionScore then .highlyReliableHelper
  else if 8 ≤ c.completed ∧ 75 / 100 ≤ c.completionScore then .reliableHelper
  else .activeHelper

def rankingReliability : ℚ :=
  7 / 10 * c.completionScore + 3 / 10 * c.responsivenessScore

end ReliabilityCounters

/-! ## `redact.ts` -/

/-- The placeholder `REDACTED`. -/
def redacted : List Char := ['‹', '…', '›']

/-- `\d` of an ECMAScript pattern. -/
def isDigitChar (c : Char) : Bool := '0' ≤ c && c ≤ '9'

/-- `\s` of an ECMAScript pattern: white space and line terminators. -/
def isSpaceChar (c : Char) : Bool :=
  let n := c.toNat
  (9 ≤ n && n ≤ 13) || n = 32 || n = 0xA0 || n = 0x1680 ||
    (0x2000 ≤ n && n ≤ 0x200A) || n = 0x2028 || n = 0x2029 || n = 0x202F ||
    n = 0x205F || n = 0x3000 || n = 0xFEFF

/-- `[\s-]` of the pattern. -/
def isSeparatorChar (c : Char) : Bool := isSpaceChar c || c = '-'

/-- The greedy `(?:[\s-]*\d)*` after a digit: how many groups match, and how many
characters they take.  `gap` counts the separators read since the last digit. -/
def digitGroups (gap : ℕ) : List Char → ℕ × ℕ
  | [] => (0, 0)
  | c :: cs =>
      if isDigitChar c then
        let tail := digitGroups 0 cs
        (tail.1 + 1, gap + 1 + tail.2)
      else if isSeparatorChar c then digitGroups (gap + 1) cs
      else (0, 0)

/-- The global replace of `LONG_DIGIT_RUN`; `skip` counts the characters of a
match that are still to be dropped. -/
def redactFrom (skip : ℕ) : List Char → List Char
  | [] => []
  | c :: cs =>
      match skip with
      | skip + 1 => redactFrom skip cs
      | 0 =>
          let groups := digitGroups 0 cs
          if isDigitChar c ∧ 7 ≤ groups.1 then redacted ++ redactFrom groups.2 cs
          else c :: redactFrom 0 cs

def redactContactDetails (text : String) : String :=
  String.ofList (redactFrom 0 text.toList)

example : redactContactDetails "call 98765 43210, gate 12" = "call ‹…›, gate 12" := by
  decide +kernel

end Sahay
