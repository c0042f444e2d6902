import Sahay.Refinement.Writes

/-!
# Units of offers and matches

A category admits alternative units, and helpers and requesters choose among them.
The candidate query compares categories only, and quantities are never converted; so
offers and matches are in one unit exactly as far as the stock that passes find is.
-/

namespace Sahay

namespace Db

variable {db : Db}

def InUnit (db : Db) (requestId : RequestId) (itemId : ItemId) : Prop :=
  ∃ request item, db.requests.lookup requestId = some request ∧
    db.inventoryItems.lookup itemId = some item ∧ item.unit = request.unit

/-- Every offer and every match draws on an item in the unit of its request. -/
structure UnitsAgree (db : Db) : Prop where
  offers : ∀ oid o, db.matchOffers.lookup oid = some o → db.InUnit o.requestId o.inventoryItemId
  matchRows : ∀ mid m, db.matchRows.lookup mid = some m → db.InUnit m.requestId m.inventoryItemId

/-- Whatever stock a pass finds for its request is in the request's unit. -/
def FindsInUnit (db : Db) (i : Env × Op) : Prop :=
  match i.2 with
  | .runMatchPass requestId _ => ∀ request event itemId item,
      db.Searches i.1 requestId request event → db.inventoryItems.lookup itemId = some item →
        db.candidateEligible i.1 requestId request event item = true → item.unit = request.unit
  | _ => True

/-! ## One step -/

theorem InUnit.step {i : Env × Op} {oid : OfferId} {o : MatchOffer} (hx : db.Consistent)
    (h : db.InUnit o.requestId o.inventoryItemId)
    (ho : (db.step i).matchOffers.lookup oid = some o) :
    (db.step i).InUnit o.requestId o.inventoryItemId := by
  obtain ⟨request, item, hr, hi, hunit⟩ := h
  have hitem : ∃ item', (db.step i).inventoryItems.lookup o.inventoryItemId = some item' ∧
      item'.identity = item.identity := by
    rcases db.step_cases i with ⟨effects, hexec⟩ | hsame
    · rcases (exec_refines hx.exchange hexec).single with hquiet | hstep
      · exact ⟨item, hquiet.inventoryItems ▸ hi, rfl⟩
      · exact hstep.keeps_item ho hi
    · exact ⟨item, hsame.symm ▸ hi, rfl⟩
  obtain ⟨item', hi', hitemId⟩ := hitem
  obtain ⟨request', hr', hrequestId⟩ := (step_keeps hx.exchange i).requests _ request hr
  simp only [InventoryItem.identity, Request.identity, Prod.mk.injEq] at hitemId hrequestId
  refine ⟨request', item', hr', hi', ?_⟩
  calc item'.unit = item.unit := hitemId.2.2.2
    _ = request.unit := hunit
    _ = request'.unit := hrequestId.2.2.2.2.symm

theorem FindsInUnit.invites {i : Env × Op} {o : MatchOffer} (hfinds : db.FindsInUnit i)
    (h : db.OpInvites i.1 i.2 o) : db.InUnit o.requestId o.inventoryItemId := by
  obtain ⟨choices, hop, -, request, event, item, hsearches, hi, heligible⟩ := h
  rw [FindsInUnit, hop] at hfinds
  exact ⟨request, item, hsearches.row, hi, hfinds request event _ item hsearches hi heligible⟩

theorem step_unitsAgree {i : Env × Op} (hx : db.Consistent) (hagree : db.UnitsAgree)
    (hfinds : db.FindsInUnit i) : (db.step i).UnitsAgree := by
  have hbefore : ∀ oid o, (db.step i).matchOffers.lookup oid = some o →
      db.InUnit o.requestId o.inventoryItemId := by
    intro oid o ho
    rcases db.step_cases i with ⟨effects, hexec⟩ | hsame
    · obtain ⟨source, hid, hsource⟩ := (exec_writes hexec).offers_before oid o ho
      simp only [MatchOffer.identity, Prod.mk.injEq] at hid
      rw [← hid.1, ← hid.2.2.1]
      rcases hsource with ⟨oid', ho'⟩ | hinvites
      · exact hagree.offers oid' source ho'
      · exact hfinds.invites hinvites
    · exact hagree.offers oid o (hsame ▸ ho)
  constructor
  · exact fun oid o ho => (hbefore oid o ho).step hx ho
  · intro mid m hm
    have hlinked := (db.step_consistent i hx).exchange.linked
    obtain ⟨o, ho, hrequest, -, hitem⟩ := (hlinked.matchRows mid m hm).offer
    rw [← hrequest, ← hitem]
    exact (hbefore _ o ho).step hx ho

/-! ## Runs -/

/-- In a run whose passes find stock in the unit of their requests only, units agree. -/
theorem unitsAgree_of_inUnit {is : List (Env × Op)} (h : Along step FindsInUnit Db.empty is) :
    (runFrom step Db.empty is).UnitsAgree := by
  have hempty : Db.empty.UnitsAgree :=
    ⟨fun oid o ho => by simp [Db.empty] at ho, fun mid m hm => by simp [Db.empty] at hm⟩
  have hrun := Along.invariant (P := fun db => db.Consistent ∧ db.UnitsAgree)
    (fun db i hdb hfinds => ⟨db.step_consistent i hdb.1, step_unitsAgree hdb.1 hdb.2 hfinds⟩)
    ⟨empty_consistent, hempty⟩ h
  exact hrun.2

/-- User 2 lists water in one unit, user 1 asks for some in another (or the same) and is
matched. -/
def waterRun (held asked : Units) : List (Env × Op) :=
  let categories := (∅ : Table CategoryId Category).put 1
    { unit := .bottle, altUnits := [.litre] }
  [(SmallEvent.clock 0,
      .directory { SmallEvent.directory [1, 2] [] with categories := categories }),
   (SmallEvent.clock 1 10, .addInventory (SmallEvent.token 2) 1
      { SmallEvent.item SmallEvent.two with unit := held }),
   (SmallEvent.clock 2 20, .createRequest (SmallEvent.token 1)
      { SmallEvent.request SmallEvent.two "a" with unit := asked }),
   (SmallEvent.clock 3 30, .runMatchPass 20 SmallEvent.choices),
   (SmallEvent.clock 4 40, .acceptOffer (SmallEvent.token 2) 30 SmallEvent.draws)]

theorem unitsAgree_of_inUnit_litres :
    (runFrom step Db.empty (waterRun .litre .litre)).UnitsAgree ∧
      40 ∈ (runFrom step Db.empty (waterRun .litre .litre)).matchRows := by
  let listed := runFrom step Db.empty ((waterRun .litre .litre).take 3)
  have hasked : ∀ rid r, listed.requests.lookup rid = some r → r.unit = .litre :=
    @of_decide_eq_true _ (Table.decidableForall _ fun _ (r : Request) => r.unit = .litre)
      (by decide +kernel)
  have hheld : ∀ iid item, listed.inventoryItems.lookup iid = some item → item.unit = .litre :=
    @of_decide_eq_true _ (Table.decidableForall _ fun _ (item : InventoryItem) =>
      item.unit = .litre) (by decide +kernel)
  have hfinds : listed.FindsInUnit (SmallEvent.clock 3 30, .runMatchPass 20 SmallEvent.choices) :=
    fun request _ itemId item hsearches hi _ =>
      (hheld itemId item hi).trans (hasked _ request hsearches.row).symm
  exact ⟨unitsAgree_of_inUnit ⟨trivial, trivial, trivial, hfinds, trivial, trivial⟩,
    by decide +kernel⟩

/-- Two litres are reserved for two bottles. -/
theorem unitsAgree_fails :
    ¬(runFrom step Db.empty (waterRun .litre .bottle)).UnitsAgree := by
  intro h
  have hmatched : ((runFrom step Db.empty (waterRun .litre .bottle)).matchRows.lookup 40).any
      (fun m => m.requestId = 20 && m.inventoryItemId = 10) = true := by decide +kernel
  obtain ⟨m, hm, hrows⟩ := (Option.any_eq_true _ _).mp hmatched
  simp only [Bool.and_eq_true, decide_eq_true_eq] at hrows
  obtain ⟨request, item, hr, hi, hunit⟩ := h.matchRows 40 m hm
  rw [hrows.1] at hr
  rw [hrows.2] at hi
  have hasked : ((runFrom step Db.empty (waterRun .litre .bottle)).requests.lookup 20).map
      Request.unit = some .bottle := by decide +kernel
  have hheld : ((runFrom step Db.empty (waterRun .litre .bottle)).inventoryItems.lookup 10).map
      InventoryItem.unit = some .litre := by decide +kernel
  rw [hr, Option.map_some, Option.some.injEq] at hasked
  rw [hi, Option.map_some, Option.some.injEq, hunit, hasked] at hheld
  exact absurd hheld (by decide)

end Db
end Sahay
