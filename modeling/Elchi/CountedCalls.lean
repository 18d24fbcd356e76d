import Elchi.Programs
namespace Elchi.Programs
variable {A S F E α β : Type} {Answer : A → Type}

-- A procedure that takes the first n fates of a list, and what it comes to.
def Program.Takes (handler : Handler Answer E S F) (usual : F) (fates : List F) (n : Nat) (program : Program Answer E α) (s : S)
    (Q : Except E α → S → Prop) : Prop :=
  ∃ result after,program.exec handler usual fates s = (after,result,fates.drop n) ∧ Q result after

section Counting
variable {handler : Handler Answer E S F} {usual : F} {fates : List F} {s : S}

theorem takes_result {n : Nat} {program : Program Answer E α} {Q : Except E α → S → Prop} (takes : program.Takes handler usual fates n s Q) :
    Q (program.exec handler usual fates s).2.1 (program.exec handler usual fates s).1 := by
  obtain ⟨result,after,ran,holds⟩ := takes
  rw [ran]
  exact holds
theorem takes_mono {n : Nat} {program : Program Answer E α} {Q Q' : Except E α → S → Prop} (takes : program.Takes handler usual fates n s Q)
    (weaker : ∀ result after,Q result after → Q' result after) : program.Takes handler usual fates n s Q' := by
  obtain ⟨result,after,ran,holds⟩ := takes
  exact ⟨result,after,ran,weaker result after holds⟩
theorem takes_done {result : Except E α} {Q : Except E α → S → Prop} (holds : Q result s) :
    (.done result : Program Answer E α).Takes handler usual fates 0 s Q := ⟨result,s,rfl,holds⟩
theorem takes_call {action : A} {Q : Except E (Answer action) → S → Prop}
    (holds : Q (handler (fates.headD usual) action s).2 (handler (fates.headD usual) action s).1) :
    (perform action : Program Answer E (Answer action)).Takes handler usual fates 1 s Q := by
  refine ⟨_,_,?_,holds⟩
  rw [List.drop_one]
  rfl
-- One procedure after another, and one that stops it.
theorem takes_bind {m n : Nat} {program : Program Answer E α} {f : α → Program Answer E β} {Q : Except E β → S → Prop}
    (first : program.Takes handler usual fates m s fun result mid => ∃ a,result = .ok a ∧ (f a).Takes handler usual (fates.drop m) n mid Q) :
    (program.bind f).Takes handler usual fates (m+n) s Q := by
  obtain ⟨_,mid,ran,a,rfl,result,after,later,holds⟩ := first
  refine ⟨result,after,?_,holds⟩
  rw [exec_bind,ran]
  dsimp only
  rw [later,List.drop_drop]
theorem takes_stop {n : Nat} {program : Program Answer E α} {f : α → Program Answer E β} {Q : Except E β → S → Prop}
    (first : program.Takes handler usual fates n s fun result mid => ∃ e,result = .error e ∧ Q (.error e) mid) :
    (program.bind f).Takes handler usual fates n s Q := by
  obtain ⟨_,mid,ran,e,rfl,holds⟩ := first
  refine ⟨.error e,mid,?_,holds⟩
  rw [exec_bind,ran]
theorem exec_attempt (program : Program Answer E α) (fates : List F) (s : S) : program.attempt.exec handler usual fates s =
    ((program.exec handler usual fates s).1,.ok (program.exec handler usual fates s).2.1,(program.exec handler usual fates s).2.2) := by
  induction program generalizing fates s with
  | done result => rfl
  | call action next ih => exact ih _ _ _
theorem takes_attempt {n : Nat} {program : Program Answer E α} {Q : Except E (Except E α) → S → Prop}
    (takes : program.Takes handler usual fates n s fun result => Q (.ok result)) : program.attempt.Takes handler usual fates n s Q := by
  obtain ⟨result,after,ran,holds⟩ := takes
  exact ⟨.ok result,after,by rw [exec_attempt,ran],holds⟩
theorem takes_tolerate {n : Nat} {program : Program Answer E Unit} {Q : Except E Unit → S → Prop}
    (takes : program.Takes handler usual fates n s fun _ => Q (.ok ())) : (tolerate program).Takes handler usual fates n s Q :=
  takes_bind (takes_attempt (takes_mono takes fun result _ holds => ⟨result,rfl,takes_done holds⟩))

theorem takes_require {n : Nat} {fine : Bool} {error : E} {f : Unit → Program Answer E β} {Q : Except E β → S → Prop} (passed : fine = true)
    (later : (f ()).Takes handler usual fates n s Q) : ((require fine error).bind f).Takes handler usual fates n s Q := by
  subst passed
  exact later
theorem takes_found {n : Nat} {row : Option α} {a : α} {error : E} {f : α → Program Answer E β} {Q : Except E β → S → Prop} (there : row = some a)
    (later : (f a).Takes handler usual fates n s Q) : ((found row error).bind f).Takes handler usual fates n s Q := by
  subst there
  exact later
theorem takes_refuse {n : Nat} {row : Option α} {error : α → E} {f : Unit → Program Answer E β} {Q : Except E β → S → Prop} (absent : row = none)
    (later : (f ()).Takes handler usual fates n s Q) : ((refuse row error).bind f).Takes handler usual fates n s Q := by
  subst absent
  exact later
theorem takes_lenient {n : Nat} {lookup : Program Answer E α} {default : α} {Q : Except E α → S → Prop}
    (takes : lookup.Takes handler usual fates n s fun result after => ∃ a,result = .ok a ∧ Q (.ok a) after) :
    (lenient lookup default).Takes handler usual fates n s Q := by
  refine takes_bind (n:=0) (takes_attempt (takes_mono takes fun result after answered => ⟨result,rfl,?_⟩))
  obtain ⟨a,rfl,holds⟩ := answered
  exact takes_done holds

-- The first n of a list of fates go well.
variable {well : F → Prop}
def Clear (usual : F) (well : F → Prop) (n : Nat) (fates : List F) : Prop := ∀ i,i < n → well (fates.getD i usual)

theorem getD_drop (fates : List F) (n i : Nat) : (fates.drop n).getD i usual = fates.getD (n+i) usual := by
  simp [List.getD_eq_getElem?_getD]
theorem head_getD (fates : List F) : fates.headD usual = fates.getD 0 usual := by
  cases fates with
  | nil => rfl
  | cons fate rest => rfl
theorem Clear.front {m n : Nat} (clear : Clear usual well n fates) (fewer : m ≤ n) : Clear usual well m fates :=
  fun i inside => clear i (Nat.lt_of_lt_of_le inside fewer)
theorem Clear.drop {m n : Nat} (clear : Clear usual well (m+n) fates) : Clear usual well n (fates.drop m) := fun i inside => by
  rw [getD_drop]
  exact clear (m+i) (by omega)
theorem Clear.head {n : Nat} (clear : Clear usual well n fates) (some : 0 < n) : well (fates.headD usual) := by
  rw [head_getD]
  exact clear 0 some
end Counting

end Elchi.Programs
