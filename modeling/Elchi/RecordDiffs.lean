import Mathlib.Data.List.Basic
namespace Elchi.Diffs

-- What one change wrote down: the fields it lists, with the value of each on both sides.
structure Change (K W : Type) where
  keys : List K
  before : K → W
  after : K → W

variable {K W : Type} {watched : K → Prop} {s t u : K → W} {change : Change K W} {changes later : List (Change K W)}

def Agree (watched : K → Prop) (s t : K → W) : Prop := ∀ k,watched k → s k = t k
theorem Agree.refl (s : K → W) : Agree watched s s := fun _ _ => rfl
theorem Agree.symm (agree : Agree watched s t) : Agree watched t s := fun k inside => (agree k inside).symm
theorem Agree.trans (first : Agree watched s t) (second : Agree watched t u) : Agree watched s u :=
  fun k inside => (first k inside).trans (second k inside)

-- The change tells what happened between the two snapshots: a listed field with both its values, an
-- unlisted one by staying out.
structure Describes (watched : K → Prop) (change : Change K W) (s t : K → W) : Prop where
  listed : ∀ k,watched k → k ∈ change.keys → change.before k = s k ∧ change.after k = t k
  unlisted : ∀ k,watched k → k ∉ change.keys → s k = t k

-- Changes that lead from one snapshot to another, with unrecorded moves that no watched field shows.
inductive Trail (watched : K → Prop) : (K → W) → List (Change K W) → (K → W) → Prop
  | done {s t : K → W} (agree : Agree watched s t) : Trail watched s [] t
  | step {s t u : K → W} {change : Change K W} {later : List (Change K W)} (first : Describes watched change s t)
      (rest : Trail watched t later u) : Trail watched s (change :: later) u

section Replay
variable [DecidableEq K]

def Change.forward (change : Change K W) (s : K → W) : K → W := fun k => if k ∈ change.keys then change.after k else s k
def Change.backward (change : Change K W) (s : K → W) : K → W := fun k => if k ∈ change.keys then change.before k else s k
-- Oldest first, and newest first.
def replay (changes : List (Change K W)) (s : K → W) : K → W := changes.foldl (fun s change => change.forward s) s
def undo (changes : List (Change K W)) (s : K → W) : K → W := changes.foldl (fun s change => change.backward s) s

theorem forward_agree (describes : Describes watched change s t) (same : Agree watched u s) : Agree watched (change.forward u) t := by
  intro k inside
  unfold Change.forward
  split
  · rename_i listed
    exact (describes.listed k inside listed).2
  · rename_i unlisted
    exact (same k inside).trans (describes.unlisted k inside unlisted)
theorem backward_agree (describes : Describes watched change s t) (same : Agree watched u t) : Agree watched (change.backward u) s := by
  intro k inside
  unfold Change.backward
  split
  · rename_i listed
    exact (describes.listed k inside listed).1
  · rename_i unlisted
    exact (same k inside).trans (describes.unlisted k inside unlisted).symm

theorem replay_trail (trail : Trail watched s changes t) (same : Agree watched u s) : Agree watched (replay changes u) t := by
  induction trail generalizing u with
  | done agree => exact same.trans agree
  | step first _ ih => exact ih (forward_agree first same)
theorem undo_trail (trail : Trail watched s changes t) (same : Agree watched u t) : Agree watched (undo changes.reverse u) s := by
  induction trail with
  | done agree => exact same.trans agree.symm
  | step first _ ih =>
    rw [List.reverse_cons,undo,List.foldl_append]
    exact backward_agree first (ih same)

end Replay

theorem trail_start (same : Agree watched s t) (trail : Trail watched t changes u) : Trail watched s changes u := by
  cases trail with
  | done agree => exact .done (same.trans agree)
  | step first rest =>
    refine .step ⟨fun k inside listed => ?_,fun k inside unlisted => ?_⟩ rest
    · rw [same k inside]
      exact first.listed k inside listed
    · exact (same k inside).trans (first.unlisted k inside unlisted)
theorem trail_append (first : Trail watched s changes t) (second : Trail watched t later u) : Trail watched s (changes ++ later) u := by
  induction first with
  | done agree => exact trail_start agree second
  | step here _ ih => exact .step here (ih second)

end Elchi.Diffs
