import Sahay.Lifecycle.Linked

/-!
# Conversations

A conversation belongs to a match, and a match has one conversation.  It is
written only while its match is active.
-/

namespace Sahay

variable {c : Ctx} {x x' : Exchange}

/-- The conversations after a step are those from before it, rewritten only where
the match was active; or the step has added one for a new, active match. -/
theorem Lifecycle.conversations_before (h : Lifecycle c x x') :
    (∀ cid conv', x'.conversations.lookup cid = some conv' →
      ∃ conv, x.conversations.lookup cid = some conv ∧ conv.matchId = conv'.matchId ∧
        (conv = conv' ∨
          ∃ m, x.matchRows.lookup conv'.matchId = some m ∧ m.status = .active)) ∨
      ∃ cid conv m, conv.matchId ∉ x.matchRows ∧ m.status = .active ∧
        x'.matchRows = x.matchRows.put conv.matchId m ∧
        x'.conversations = x.conversations.put cid conv := by
  have hrewritten {mid : MatchId} {m : Match} {cid : ConversationId} {conv conv' : Conversation}
      (hm : x.matchRows.lookup mid = some m) (hactive : m.status = .active)
      (hcid : x.conversations.lookup cid = some conv) (hmatch : conv.matchId = mid)
      (hmatch' : conv'.matchId = mid) (k : ConversationId) (row : Conversation)
      (hrow : (x.conversations.replace cid conv').lookup k = some row) :
      ∃ conv, x.conversations.lookup k = some conv ∧ conv.matchId = row.matchId ∧
        (conv = row ∨ ∃ m, x.matchRows.lookup row.matchId = some m ∧ m.status = .active) := by
    rw [Table.lookup_replace hcid] at hrow
    split_ifs at hrow with hk
    · obtain rfl := Option.some.inj hrow
      exact ⟨conv, hk ▸ hcid, hmatch.trans hmatch'.symm, .inr ⟨m, hmatch' ▸ hm, hactive⟩⟩
    · exact ⟨row, hrow, rfl, .inl rfl⟩
  cases h with
  | accept oid o r item mid m cid ho hoffered hcaller hr hoffering hi hmid hm =>
      exact .inr ⟨cid, { matchId := mid, createdAt := c.now }, m, hmid, hm.status, rfl, rfl⟩
  | settle mid m m' r item cid conv final disputed closeReason actor hm hactive hconfirms hfinal
      hr hmatched hi hcid hconv => exact .inl (hrewritten hm hactive hcid hconv hconv)
  | cancel mid m r item cid conv conv' canceller status closeReason reason hm hactive hstatus hr
      hmatched hi hcid hconv hconv' => exact .inl (hrewritten hm hactive hcid hconv hconv')
  | _ => exact .inl fun cid conv' hconv' => ⟨conv', hconv', rfl, .inl rfl⟩

/-- Conversations refer to matches, no two of them to the same one. -/
structure Exchange.Conversed (x : Exchange) : Prop where
  known : ∀ cid conv, x.conversations.lookup cid = some conv → conv.matchId ∈ x.matchRows
  unique : ∀ cid cid' conv conv', x.conversations.lookup cid = some conv →
    x.conversations.lookup cid' = some conv' → conv.matchId = conv'.matchId → cid = cid'

theorem Lifecycle.conversed (h : Lifecycle c x x') (hx : x.Conversed) : x'.Conversed := by
  have hmem (mid : MatchId) (hmid : mid ∈ x.matchRows) : mid ∈ x'.matchRows := by
    obtain ⟨m, hm⟩ := Table.mem_iff_exists.mp hmid
    obtain ⟨m', hm', -⟩ := h.keeps.matchRows mid m hm
    exact Table.mem_iff_exists.mpr ⟨m', hm'⟩
  rcases h.conversations_before with hold | ⟨cid₀, conv₀, m, hfresh, -, hrows, hput⟩
  · constructor
    · intro cid conv' hconv'
      obtain ⟨conv, hconv, hmatch, -⟩ := hold cid conv' hconv'
      exact hmatch ▸ hmem _ (hx.known cid conv hconv)
    · intro cid cid' conv₁ conv₂ h₁ h₂ hmatch
      obtain ⟨conv, hconv, hmatch₁, -⟩ := hold cid conv₁ h₁
      obtain ⟨conv', hconv', hmatch₂, -⟩ := hold cid' conv₂ h₂
      exact hx.unique cid cid' conv conv' hconv hconv' (by rw [hmatch₁, hmatch, hmatch₂])
  · -- The new conversation is the only one of its match, which is new as well.
    have hother (cid : ConversationId) (conv : Conversation)
        (hconv : x.conversations.lookup cid = some conv) : conv.matchId ≠ conv₀.matchId := by
      intro heq
      exact hfresh (heq ▸ hx.known cid conv hconv)
    constructor
    · rw [hput]
      refine Table.forall_put (fun cid conv hconv => hmem _ (hx.known cid conv hconv)) ?_
      exact hrows ▸ Table.mem_iff_exists.mpr ⟨m, by rw [Table.lookup_put, if_pos rfl]⟩
    · intro cid cid' conv conv' hconv hconv' hmatch
      rw [hput, Table.lookup_put] at hconv hconv'
      split_ifs at hconv hconv' with hk hk' hk'
      · rw [hk, hk']
      · exact absurd hmatch.symm (Option.some.inj hconv ▸ hother cid' conv' hconv')
      · exact absurd hmatch (Option.some.inj hconv' ▸ hother cid conv hconv)
      · exact hx.unique cid cid' conv conv' hconv hconv' hmatch

end Sahay
