import Sahay.Refinement.ActiveItems

/-!
# The cap on a user's active items

`addInventory` counts the user's active items in the event and refuses beyond the cap.
`updateInventory` activates an item that was deactivated without counting.  The cap holds
in the states of a run exactly when whoever reactivates an item is below it.
-/

namespace Sahay

namespace Db

variable {db db' : Db} {env : Env}

/-- Nobody has more than `maxInventoryItemsPerEvent` active items in an event. -/
def ItemsCapped (db : Db) : Prop :=
  ∀ userId eventId, db.activeItems userId eventId ≤ Limits.maxInventoryItemsPerEvent

/-- The inactive item that an update by its owner activates. -/
def reactivated (db : Db) (i : Env × Op) : Option InventoryItem :=
  match i.2 with
  | .updateInventory token itemId input => do
      let auth ← (db.authenticate i.1.now token).toOption
      let item ← db.ownItem auth.userId itemId
      guard (input.active = some true ∧ item.active = false ∧
        ∀ qtyTotal ∈ input.qtyTotal, item.qtyReserved ≤ qtyTotal.1)
      return item
  | _ => none

/-- Whoever reactivates an item has fewer active items in its event than the cap. -/
def reactivatesBelowCap (db : Db) (i : Env × Op) : Bool :=
  (db.reactivated i).all fun item =>
    db.activeItems item.userId item.eventId < Limits.maxInventoryItemsPerEvent

/-! ## Adding an item -/

/-- A new item adds at most one to its owner's count in its event. -/
theorem activeItems_put {itemId : ItemId} {item : InventoryItem}
    (hfresh : itemId ∉ db.inventoryItems)
    (hput : db'.inventoryItems = db.inventoryItems.put itemId item) (userId : UserId)
    (eventId : EventId) :
    db'.activeItems userId eventId ≤ db.activeItems userId eventId +
      if item.userId = userId ∧ item.eventId = eventId then 1 else 0 := by
  rw [activeItems, hput, Table.count_put hfresh, add_comm, activeItems]
  apply Nat.add_le_add_left
  by_cases howner : item.userId = userId ∧ item.eventId = eventId
  · rw [if_pos howner]
    split_ifs <;> omega
  · rw [if_neg howner, if_neg]
    simp only [Bool.and_eq_true, decide_eq_true_eq]
    exact fun h => howner h.1

/-- An item more of one owner in one event keeps everyone at or below the cap, when that
owner was below it. -/
theorem ItemsCapped.one_more (hcap : db.ItemsCapped) {userId : UserId} {eventId : EventId}
    (hbelow : db.activeItems userId eventId < Limits.maxInventoryItemsPerEvent)
    (hmore : ∀ u e, db'.activeItems u e ≤
      db.activeItems u e + if userId = u ∧ eventId = e then 1 else 0) : db'.ItemsCapped := by
  intro u e
  have hle := hmore u e
  split_ifs at hle with howner
  · obtain ⟨rfl, rfl⟩ := howner
    omega
  · exact hle.trans (hcap u e)

/-! ## Updating an item -/

/-- The row after an update. -/
def updatedItem (now : Time) (input : UpdateInventoryInput) (item : InventoryItem) :
    InventoryItem :=
  { item with
    updatedAt := now
    qtyOnHand := input.qtyTotal.elim item.qtyOnHand Subtype.val
    details := input.details.getD item.details
    active := input.active.getD item.active }

theorem updateInventory_ok {userId : UserId} {itemId : ItemId} {input : UpdateInventoryInput} :
    db.updateInventory env userId itemId input = .ok db' ↔
      ∃ item, db.ownItem userId itemId = some item ∧
        (∀ qtyTotal ∈ input.qtyTotal, item.qtyReserved ≤ qtyTotal.1) ∧
        (updatedItem env.now input item).check ∧
        { db with inventoryItems :=
          db.inventoryItems.replace itemId (updatedItem env.now input item) } = db' := by
  simp only [updateInventory, bind_ok, found_ok, ensure_ok, updateInventoryItem_ok]
  constructor
  · rintro ⟨item, hown, ⟨⟩, hreserved, item', hi', hcheck, rfl⟩
    obtain ⟨hi, -⟩ := Option.filter_eq_some_iff.mp hown
    obtain rfl := Option.some.inj (hi.symm.trans hi')
    exact ⟨item, hown, hreserved, hcheck, rfl⟩
  · rintro ⟨item, hown, hreserved, hcheck, rfl⟩
    exact ⟨item, hown, ⟨⟩, hreserved, item, (Option.filter_eq_some_iff.mp hown).1, hcheck, rfl⟩

theorem ownItem_some {userId : UserId} {itemId : ItemId} {item : InventoryItem}
    (h : db.ownItem userId itemId = some item) :
    db.inventoryItems.lookup itemId = some item ∧ item.userId = userId := by
  obtain ⟨hi, howner⟩ := Option.filter_eq_some_iff.mp h
  exact ⟨hi, of_decide_eq_true howner⟩

/-- A rewritten item counts as it did, but for whether it is active. -/
theorem activeItems_replace {itemId : ItemId} {item item' : InventoryItem}
    (hi : db.inventoryItems.lookup itemId = some item) (hid : item'.identity = item.identity)
    (hreplace : db'.inventoryItems = db.inventoryItems.replace itemId item') (userId : UserId)
    (eventId : EventId) :
    db'.activeItems userId eventId +
        (if item.userId = userId ∧ item.eventId = eventId ∧ item.active = true then 1 else 0) =
      db.activeItems userId eventId +
        if item.userId = userId ∧ item.eventId = eventId ∧ item'.active = true
          then 1 else 0 := by
  simp only [InventoryItem.identity, Prod.mk.injEq] at hid
  have hcount := Table.count_replace hi item' fun _ item =>
    decide (item.userId = userId) && decide (item.eventId = eventId) && item.active
  rw [hid.1, hid.2.1] at hcount
  simp only [Bool.and_eq_true, decide_eq_true_eq, and_assoc] at hcount
  rwa [← hreplace] at hcount

theorem reactivated_updateInventory {token : String} {itemId : ItemId}
    {input : UpdateInventoryInput} {item : InventoryItem} :
    db.reactivated (env, .updateInventory token itemId input) = some item ↔
      ∃ auth, db.authenticate env.now token = .ok auth ∧
        db.ownItem auth.userId itemId = some item ∧ input.active = some true ∧
        item.active = false ∧ ∀ qtyTotal ∈ input.qtyTotal, item.qtyReserved ≤ qtyTotal.1 := by
  simp only [reactivated, Option.bind_eq_bind, Option.bind_eq_some_iff, Option.guard_eq_some',
    Option.pure_def, Option.some.injEq]
  constructor
  · rintro ⟨auth, hauth, item, hown, -, hguard, rfl⟩
    cases hok : db.authenticate env.now token with
    | ok auth' =>
        rw [hok] at hauth
        obtain rfl := Option.some.inj hauth
        exact ⟨auth', rfl, hown, hguard⟩
    | error e =>
        rw [hok] at hauth
        cases hauth
  · rintro ⟨auth, hauth, hown, hguard⟩
    exact ⟨auth, by rw [hauth]; rfl, item, hown, (), hguard, rfl⟩

theorem updatedItem_check {now : Time} {input : UpdateInventoryInput} {item : InventoryItem}
    (hcheck : item.check)
    (hreserved : ∀ qtyTotal ∈ input.qtyTotal, item.qtyReserved ≤ qtyTotal.1) :
    (updatedItem now input item).check := by
  obtain ⟨honHand, hnonneg, hle⟩ := hcheck
  cases htotal : input.qtyTotal with
  | none => exact ⟨by simpa [updatedItem, htotal], hnonneg, by simpa [updatedItem, htotal]⟩
  | some total =>
      have hheld := hreserved total htotal
      exact ⟨by simpa [updatedItem, htotal] using total.2.1.le, hnonneg,
        by simpa [updatedItem, htotal] using hheld⟩

/-- A reactivation commits and adds one to its owner's count in the event. -/
theorem step_reactivated (hx : db.toExchange.Consistent) {i : Env × Op} {item : InventoryItem}
    (h : db.reactivated i = some item) (userId : UserId) (eventId : EventId) :
    (db.step i).activeItems userId eventId = db.activeItems userId eventId +
      if item.userId = userId ∧ item.eventId = eventId then 1 else 0 := by
  obtain ⟨env, op⟩ := i
  cases op with
  | updateInventory token itemId input =>
      obtain ⟨auth, hauth, hown, hactive, hinactive, hreserved⟩ :=
        reactivated_updateInventory.mp h
      obtain ⟨hi, -⟩ := ownItem_some hown
      have hbooked := hx.booked itemId item hi
      have hcheck : (updatedItem env.now input item).check :=
        updatedItem_check ⟨hbooked.2.1.trans hbooked.2.2, hbooked.2⟩ hreserved
      obtain ⟨db', hitems, hupdate⟩ : ∃ db' : Db, db'.inventoryItems =
            db.inventoryItems.replace itemId (updatedItem env.now input item) ∧
          db.updateInventory env auth.userId itemId input = .ok db' :=
        ⟨_, rfl, updateInventory_ok.mpr ⟨item, hown, hreserved, hcheck, rfl⟩⟩
      have hexec : db.exec env (.updateInventory token itemId input) = .ok ([], db') := by
        simp only [exec, asUser, hauth, bind_ok_left, silently, hupdate]
        rfl
      have hnow : (updatedItem env.now input item).active = true := by
        simp [updatedItem, hactive]
      have hid : (updatedItem env.now input item).identity = item.identity := rfl
      have hcount := activeItems_replace hi hid hitems userId eventId
      rw [step_of_ok hexec]
      simpa [hinactive, hnow] using hcount
  | _ => cases h

theorem updateInventory_keepsActiveItems {token : String} {auth : AuthContext} {itemId : ItemId}
    {input : UpdateInventoryInput} (hauth : db.authenticate env.now token = .ok auth)
    (hnone : db.reactivated (env, .updateInventory token itemId input) = none)
    (h : db.updateInventory env auth.userId itemId input = .ok db') :
    KeepsActiveItems db db' := by
  obtain ⟨item, hown, hreserved, -, rfl⟩ := updateInventory_ok.mp h
  refine .replace (ownItem_some hown).1 fun hactive => ⟨?_, rfl⟩
  by_contra hinactive
  rw [Bool.not_eq_true] at hinactive
  have hinput : input.active = some true := by
    cases hinput : input.active with
    | none =>
        rw [updatedItem, hinput, Option.getD_none, hinactive] at hactive
        cases hactive
    | some active =>
        rw [updatedItem, hinput, Option.getD_some] at hactive
        exact congrArg some hactive
  have hsome := reactivated_updateInventory.mpr
    ⟨auth, hauth, hown, hinput, hinactive, hreserved⟩
  rw [hnone] at hsome
  cases hsome

/-! ## Runs -/

theorem step_itemsCapped_of_none {i : Env × Op} (hcap : db.ItemsCapped)
    (hnone : db.reactivated i = none) : (db.step i).ItemsCapped := by
  have hkeep {db' : Db} (h : KeepsActiveItems db db') : db'.ItemsCapped :=
    fun userId eventId => (h.activeItems_le userId eventId).trans (hcap userId eventId)
  obtain ⟨env, op⟩ := i
  rcases db.step_cases (env, op) with ⟨effects, h⟩ | h
  · cases op with
    | addInventory token eventId input =>
        obtain ⟨auth, -, -, hbody⟩ := asUser_ok h
        obtain ⟨⟨itemId, mid⟩, hadd, hpure⟩ := bind_ok.mp (silently_ok hbody).1
        obtain hmid := pure_ok.mp hpure
        rw [← hmid]
        rcases addInventory_ok hadd with ⟨-, rfl⟩ | ⟨item, hadds, hput⟩
        · exact hcap
        · have hbelow : db.activeItems item.userId item.eventId <
              Limits.maxInventoryItemsPerEvent := by
            rw [hadds.owner, hadds.event]
            exact hadds.below
          exact hcap.one_more hbelow (activeItems_put hadds.fresh (by rw [hput]))
    | updateInventory token itemId input =>
        obtain ⟨auth, hauth, hbody⟩ := bind_ok.mp h
        exact hkeep (updateInventory_keepsActiveItems hauth hnone (silently_ok hbody).1)
    | _ => exact hkeep (exec_keepsActiveItems rfl h)
  · rwa [h]

theorem step_itemsCapped_iff (hx : db.toExchange.Consistent) (hcap : db.ItemsCapped)
    (i : Env × Op) : (db.step i).ItemsCapped ↔ db.reactivatesBelowCap i = true := by
  unfold reactivatesBelowCap
  cases hre : db.reactivated i with
  | none => simpa using step_itemsCapped_of_none hcap hre
  | some item =>
      have hone := step_reactivated hx hre
      simp only [Option.all_some, decide_eq_true_eq]
      constructor
      · intro hcap'
        have hle := hcap' item.userId item.eventId
        rw [hone, if_pos ⟨rfl, rfl⟩] at hle
        exact hle
      · exact fun hbelow => hcap.one_more hbelow fun u e => (hone u e).le

/-- In a run from the empty database the cap holds in every state reached exactly when
whoever reactivates an item is below it. -/
theorem itemsCapped_along_iff (is : List (Env × Op)) :
    Along step (fun db i => (db.step i).ItemsCapped) Db.empty is ↔
      Along step (fun db i => db.reactivatesBelowCap i = true) Db.empty is := by
  have hstart : Db.empty.Consistent ∧ Db.empty.ItemsCapped :=
    ⟨Db.empty_consistent, fun _ _ => Nat.zero_le _⟩
  constructor
  · refine Along.strengthen (P := fun db : Db => db.Consistent ∧ db.ItemsCapped) ?_ ?_ hstart
    · exact fun db i hdb hcap => ⟨db.step_consistent i hdb.1, hcap⟩
    · exact fun db i hdb hcap => (step_itemsCapped_iff hdb.1.exchange hdb.2 i).mp hcap
  · have hkeeps (db : Db) (i : Env × Op) (hdb : db.Consistent ∧ db.ItemsCapped)
        (hbelow : db.reactivatesBelowCap i = true) : (db.step i).ItemsCapped :=
      (step_itemsCapped_iff hdb.1.exchange hdb.2 i).mpr hbelow
    exact Along.strengthen (P := fun db : Db => db.Consistent ∧ db.ItemsCapped)
      (fun db i hdb hbelow => ⟨db.step_consistent i hdb.1, hkeeps db i hdb hbelow⟩) hkeeps hstart

section Examples

open SmallEvent

/-- User 2 fills the cap, deactivates item 10, adds item 40 in its place and reactivates
item 10. -/
def reactivatedAtCap : List (Env × Op) :=
  (clock 0, .directory (directory [2] [])) ::
    (List.range 30).map (fun k => (clock 1 (10 + k), .addInventory (token 2) 1 (item one))) ++
    [(clock 2, .updateInventory (token 2) 10 { active := some false }),
     (clock 3 40, .addInventory (token 2) 1 (item one)),
     (clock 4, .updateInventory (token 2) 10 { active := some true })]

/-- User 2 ends up with 31 active items in the event. -/
theorem reactivated_exceeds : ¬(runFrom step Db.empty reactivatedAtCap).ItemsCapped := by
  have hcount : (runFrom step Db.empty reactivatedAtCap).activeItems 2 1 = 31 := by
    decide +kernel
  exact fun h => absurd (hcount ▸ h 2 1) (by decide)

end Examples

end Db
end Sahay
