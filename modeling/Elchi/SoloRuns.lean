import Elchi.LockedRuns
namespace Elchi.RowLock
variable {V J N R : Type}

structure Store (V J : Type) where
  table : Table V
  journal : Journal J
  nextId : Nat

-- One request with nobody else in the way: its answer and what it leaves stored.
def Prog.perform : Prog V J N R → Store V J → Option R × Store V J
  | .done answer,store => (some answer,store)
  | .halt,store => (none,store)
  | .find sel next,store => (next (store.table.select sel)).perform store
  | .lock sel next,store => match store.table.select sel with
    | [] => (next none).perform store
    | (key,row) :: _ => (next (some (key,row,slice store.journal key))).perform store
  | .fresh next,store => (next store.nextId).perform {store with nextId:=store.nextId+1}
  | .commit _ writes entries next,store =>
    if entries.all fun entry => ((applyWrites store.table writes).row entry.1).isSome then
      next.perform {store with table:=applyWrites store.table writes,journal:=store.journal ++ entries}
    else (none,store)

theorem perform_find (sel : Nat → V → Bool) (next : Table V → Prog V J N R) (store : Store V J) :
    (Prog.find sel next).perform store = (next (store.table.select sel)).perform store := rfl
theorem perform_fresh (next : Nat → Prog V J N R) (store : Store V J) :
    (Prog.fresh next).perform store = (next store.nextId).perform {store with nextId:=store.nextId+1} := rfl
theorem perform_lock (sel : Nat → V → Bool) (next : Option (Nat × V × List J) → Prog V J N R) (store : Store V J) :
    (Prog.lock sel next).perform store = match store.table.select sel with
      | [] => (next none).perform store
      | (key,row) :: _ => (next (some (key,row,slice store.journal key))).perform store := by simp only [Prog.perform]
theorem perform_commit (note : N) (writes : List (Write V)) (entries : Journal J) (next : Prog V J N R) (store : Store V J) :
    (Prog.commit note writes entries next).perform store =
      if entries.all fun entry => ((applyWrites store.table writes).row entry.1).isSome then
        next.perform {store with table:=applyWrites store.table writes,journal:=store.journal ++ entries}
      else (none,store) := by simp only [Prog.perform]
theorem perform_keyed (prog : Prog V J N R) {store : Store V J} (keyed : store.table.Keyed) : (prog.perform store).2.table.Keyed := by
  induction prog generalizing store with
  | done answer => exact keyed
  | halt => exact keyed
  | find sel next ih => exact ih _ keyed
  | lock sel next ih =>
    rw [perform_lock]
    split
    · exact ih _ keyed
    · exact ih _ keyed
  | fresh next ih => exact ih _ keyed
  | commit note writes entries next ih =>
    rw [perform_commit]
    split
    · exact ih (applyWrites_keyed writes keyed)
    · exact keyed

def Machine.solo (store : Store V J) (prog : Prog V J N R) (held : List (Held V J)) (log : List (Commit V J N)) : Machine V J N R :=
  ⟨store.table,store.journal,store.nextId,[⟨prog,held⟩],log⟩

theorem solo_free (store : Store V J) (prog : Prog V J N R) (held : List (Held V J)) (log : List (Commit V J N)) (key : Nat) :
    (Machine.solo store prog held log).free 0 key = true := rfl

-- It is what the machine does when only this session takes turns.
theorem perform_run {prog : Prog V J N R} {store final : Store V J} (performed : prog.perform store = (some answer,final))
    (held : List (Held V J)) (log : List (Commit V J N)) : ∃ turns held' log',
      (Machine.solo store prog held log).run (List.replicate turns (.step 0 0)) = Machine.solo final (.done answer) held' log' := by
  induction prog generalizing store held log with
  | done value =>
    cases performed
    exact ⟨0,held,log,rfl⟩
  | halt => cases performed
  | find sel next ih =>
    obtain ⟨turns,held',log',reached⟩ := ih _ performed held log
    exact ⟨turns+1,held',log',reached⟩
  | lock sel next ih =>
    rw [perform_lock] at performed
    split at performed
    · rename_i none
      obtain ⟨turns,held',log',reached⟩ := ih _ performed held log
      refine ⟨turns+1,held',log',?_⟩
      rw [List.replicate_succ,run_cons,←reached]
      simp [Machine.advance,Machine.solo,Machine.stepProg,Machine.lockRow,none,Machine.resume]
    · rename_i key row rest found
      obtain ⟨turns,held',log',reached⟩ := ih _ performed (⟨key,some row,slice store.journal key⟩ :: held) log
      refine ⟨turns+1,held',log',?_⟩
      rw [List.replicate_succ,run_cons,←reached]
      have free := solo_free store (.lock sel next) held log key
      simp only [Machine.solo] at free
      simp [Machine.advance,Machine.solo,Machine.stepProg,Machine.lockRow,found,Machine.resume,free]
  | fresh next ih =>
    obtain ⟨turns,held',log',reached⟩ := ih _ performed (⟨store.nextId,none,[]⟩ :: held) log
    exact ⟨turns+1,held',log',reached⟩
  | commit note writes entries next ih =>
    rw [perform_commit] at performed
    split at performed
    · rename_i refers
      obtain ⟨turns,held',log',reached⟩ := ih performed [] (log ++ [⟨0,note,held,store.table,writes,entries⟩])
      refine ⟨turns+1,held',log',?_⟩
      rw [List.replicate_succ,run_cons,←reached]
      have free : writes.all (fun write => (Machine.solo store (.commit note writes entries next) held log).free 0 write.key) = true := by
        simp [solo_free]
      simp only [Machine.solo] at free
      simp only [Machine.advance,Machine.solo,Machine.stepProg,Machine.commitRows,List.getElem?_cons_zero,free,refers,Bool.and_self,
        if_true]
      rfl
    · cases performed

end Elchi.RowLock
