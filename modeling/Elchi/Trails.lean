import Mathlib.Data.List.Chain
namespace Elchi.Trails
variable {E S : Type} {leaves reaches : E → S → Prop} {trail : List E} {event : E} {now next : S}

-- Every event leaves a state that the one before it reached, and the last one reached the state of now.
structure Follows (leaves reaches : E → S → Prop) (trail : List E) (now : S) : Prop where
  linked : trail.IsChain fun first second => ∃ s,reaches first s ∧ leaves second s
  ends : ∀ last ∈ trail.getLast?,reaches last now

theorem follows_nil : Follows leaves reaches [] now := ⟨List.isChain_nil,by simp⟩
theorem follows_one (arrives : reaches event now) : Follows leaves reaches [event] now :=
  ⟨List.isChain_singleton event,by simpa using arrives⟩
theorem Follows.add (follows : Follows leaves reaches trail now) (departs : leaves event now) (arrives : reaches event next) :
    Follows leaves reaches (trail ++ [event]) next := by
  refine ⟨List.isChain_append.mpr ⟨follows.linked,List.isChain_singleton event,?_⟩,by simpa using arrives⟩
  intro last ended first started
  rw [List.head?_cons,Option.mem_def,Option.some.injEq] at started
  exact ⟨now,follows.ends last ended,started ▸ departs⟩

end Elchi.Trails
