import Mathlib.Data.List.Basic
namespace Elchi.Purge
variable {S C O : Type}

-- Calls handled one after the other, with what each is answered.
def answers (handle : S → C → S × O) : S → List C → S × List O
  | s,[] => (s,[])
  | s,call :: rest => ((answers handle (handle s call).1 rest).1,(handle s call).2 :: (answers handle (handle s call).1 rest).2)
-- The same where some calls are marked as inserted, whose answers do not count, and the calls
-- without them.
def markedAnswers (handle : S → C → S × O) : S → List (Bool × C) → S × List O
  | s,[] => (s,[])
  | s,(true,call) :: rest => markedAnswers handle (handle s call).1 rest
  | s,(false,call) :: rest =>
    ((markedAnswers handle (handle s call).1 rest).1,(handle s call).2 :: (markedAnswers handle (handle s call).1 rest).2)
def purge (calls : List (Bool × C)) : List C := calls.filterMap fun call => if call.1 then none else some call.2

-- Nobody can tell from the answers whether the inserted calls were there, if a relation of the two
-- states survives both kinds of calls and what it relates answers alike. `Harmless` is what an
-- inserted call has to meet where it is made.
def AllHarmless (handle : S → C → S × O) (Harmless : S → C → List (Bool × C) → Prop) : S → List (Bool × C) → Prop
  | _,[] => True
  | s,(true,call) :: rest => Harmless s call rest ∧ AllHarmless handle Harmless (handle s call).1 rest
  | s,(false,call) :: rest => AllHarmless handle Harmless (handle s call).1 rest

theorem purged (handle : S → C → S × O) (Harmless : S → C → List (Bool × C) → Prop) (R : List (Bool × C) → S → S → Prop)
    (common : ∀ s t call rest,R ((false,call) :: rest) s t → (handle s call).2 = (handle t call).2 ∧ R rest (handle s call).1 (handle t call).1)
    (extra : ∀ s t call rest,R ((true,call) :: rest) s t → Harmless s call rest → R rest (handle s call).1 t)
    {calls : List (Bool × C)} {s t : S} (related : R calls s t) (harmless : AllHarmless handle Harmless s calls) :
    (markedAnswers handle s calls).2 = (answers handle t (purge calls)).2 ∧
      R [] (markedAnswers handle s calls).1 (answers handle t (purge calls)).1 := by
  induction calls generalizing s t with
  | nil => exact ⟨rfl,related⟩
  | cons call rest ih =>
    obtain ⟨marked,call⟩ := call
    cases marked with
    | true => exact ih (extra s t call rest related harmless.1) harmless.2
    | false =>
      obtain ⟨same,continues⟩ := common s t call rest related
      obtain ⟨later,final⟩ := ih continues harmless
      exact ⟨congrArg₂ List.cons same later,final⟩

end Elchi.Purge
