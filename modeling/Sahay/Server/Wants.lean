import Sahay.Lib.Program
import Sahay.Server.Listings

/-!
# What the organiser of an event wants

`setAdminWants` of `modules/events/wants.ts`; `computePublicWants`, which merges it with the
requests, stands with the listings that show it.
-/

namespace Sahay

/-- `AdminWant` of the request body. -/
structure AdminWantInput where
  categorySlug : String
  qty : Option ℤ

/-- `new Map(wants.map((w) => [w.categorySlug, w.qty]))`. -/
def wantsBySlug (wants : List AdminWantInput) : Table String (Option ℤ) :=
  (∅ : Table String (Option ℤ)).putAll (wants.map fun w => (w.categorySlug, w.qty))

/-- `CHECK (qty IS NULL OR (qty > 0 AND qty <= 1000000))`. -/
def wantQtySane (qty : Option ℤ) : Prop := ∀ q ∈ qty, 0 < q ∧ q ≤ 1000000

instance (qty : Option ℤ) : Decidable (wantQtySane qty) :=
  inferInstanceAs (Decidable (∀ q ∈ qty, 0 < q ∧ q ≤ 1000000))

namespace Db

/-- The body of the transaction. -/
def replaceAdminWants (eventId : EventId) (wants : List AdminWantInput) (db : Db) :
    Outcome (Unit × Db) := do
  let bySlug := wantsBySlug wants
  let _ ← found (db.events.lookup eventId) errors.notFound
  let slugs := bySlug.keys
  let cats := db.categories.select fun _ c => c.slug ∈ slugs
  ensure (cats.length = slugs.length) (errors.validation { field := some "wants" })
  let values : List ((EventId × CategoryId) × Option ℤ) := cats.map fun c =>
    ((eventId, c.1), (bySlug.lookup c.2.slug).join)
  ensure (∀ row ∈ values, wantQtySane row.2) (.checkViolation .eventAdminWants)
  let rows := values.map fun row => (row.1, { qty := row.2.map Int.toNat : AdminWant })
  let kept := db.eventAdminWants.deleteWhere fun key _ => key.1 = eventId
  return ((), { db with eventAdminWants := kept.putAll rows })

def setAdminWants (eventId : EventId) (wants : List AdminWantInput) : Program Db TxError Unit :=
  .transaction (replaceAdminWants eventId wants)

end Db
end Sahay
