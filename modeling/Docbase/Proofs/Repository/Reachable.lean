/-
What the steps of a repository preserve of the server (`Server.Preserves`). An
operation is made of parts, and preserves what these preserve, whether it fails or
not: `preserves_andThen`, `preserves_run`. Repositories change a store by calls only,
so what was reachable stays reachable (`Server.Keeps`).
-/
import Docbase.Proofs.Store.Reachable
import Docbase.Repository.Basic
import Docbase.Repository.Documents

namespace Docbase

variable {α β : Type}

namespace Server

/-- A step that leads from states with a property to states with it. -/
def Preserves (I : Server → Prop) (step : Step α) : Prop := ∀ s, I s → I (step s).2

/-- A step that leads from reachable states to reachable states. -/
def Keeps (step : Step α) : Prop := ∀ s, s.Reachable → (step s).2.Reachable

theorem keeps_insert (collection : String) {d : Document} (hd : Document.wellKeyed d = true) :
    Keeps (insert collection d) := fun _ hs => hs.call (.insert collection ⟨d, hd⟩)

end Server

open Server

namespace Binding

variable {I : Server → Prop}

theorem preserves_check (r : Result α) : Preserves I (check r) := fun _ hs => hs

/-- A step keeps what its parts keep; the second part may rely on the outcome of the first. -/
theorem preserves_andThen {first : Step α} {next : α → Step β} (hfirst : Preserves I first)
    (hnext : ∀ s s' a, first s = (.ok a, s') → Preserves I (next a)) : Preserves I (andThen first next) := by
  intro s hs
  have hs' := hfirst s hs
  unfold andThen
  split
  · next heq => rwa [heq] at hs'
  · next a s' heq =>
    rw [heq] at hs'
    exact hnext s s' a heq s' hs'

theorem preserves_andThen_check {r : Result α} {next : α → Step β}
    (hnext : ∀ a, r = .ok a → Preserves I (next a)) : Preserves I (andThen (check r) next) := by
  refine preserves_andThen (preserves_check r) fun s s' a h => hnext a ?_
  exact congrArg Prod.fst h

theorem preserves_run {step : Step α} (b : Binding) (h : Preserves I step) : Preserves I (b.run step) := by
  intro s hs
  unfold Binding.run
  split
  · exact h s hs
  · exact hs

theorem keeps_createIndex (b : Binding) (spec : IndexSpec) : Keeps (b.createIndex spec) :=
  b.preserves_run (preserves_andThen_check fun spec _ _ hs => hs.call (.createIndex b.collection spec))

end Binding

open Binding

namespace DocumentRepository

theorem keeps_add (r : DocumentRepository) {d : Document} (hd : Document.wellKeyed d = true) :
    Keeps (r.add d) := by
  refine r.binding.preserves_run fun s hs => ?_
  have hinsert := keeps_insert r.binding.collection (s.identified_wellKeyed hd)
  exact preserves_andThen hinsert (fun _ _ _ _ => preserves_check _) _ (hs.elsewhere (s.identified_store d))

end DocumentRepository

namespace Repository

variable [Entity α]

theorem identified_store (e : α) (s : Server) : (identified e s).2.store = s.store := by
  unfold identified
  split <;> rfl

end Repository
end Docbase
