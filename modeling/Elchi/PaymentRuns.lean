import Elchi.BalanceEvents
namespace Elchi.Finance
open RowLock

-- A request with what it moves when it is applied.
structure Job where
  request : Request
  moves : List Move
  safe : Safe RowLedger (Shifts moves) Applied request [] []

theorem updateBalance_shifts (now : Nat) {dto : UpdateCashboxBalanceDto} {user : Nat} {type : CashboxType}
    (named : dto.cashboxId = none ∧ dto.userId = some user ∧ dto.cashboxType = some type) :
    Safe RowLedger (Shifts [⟨user,type,dto.leg.signed⟩]) Applied (updateBalance now dto) [] [] := by
  have posts : Safe RowLedger (Posts fun sent => sent = dto) (Replies dto) (updateBalance now dto) [] [] := updateBalance_safe now dto rfl
  refine safe_mono ?_ ?_ posts
  · intro held made note writes entries
    rintro ⟨first,posted⟩
    refine ⟨first,?_⟩
    cases note with
    | balance sent =>
      obtain ⟨rfl,id,cashbox,rows,time,saved,row,rfl,addresses,-,booked,rfl,-⟩ := posted
      intro table keyed normal sees user' type'
      have stored : table.row id = some (.cashbox cashbox) := sees ⟨id,some (.cashbox cashbox),rows⟩ List.mem_cons_self
      obtain ⟨sel,chosen,selected⟩ := addresses
      simp only [UpdateCashboxBalanceDto.selector,named,Except.ok.injEq] at chosen
      subst chosen
      obtain ⟨ownUser,ownType⟩ := byUserType_owner selected
      have saved := save_moves keyed stored (normal _ _ stored) booked user' type'
      rw [ownUser,ownType] at saved
      simpa [applyWrites,moved] using saved
    | balanceReplay sent =>
      obtain ⟨-,_,_,_,-,-,-,rfl,-⟩ := posted
      rfl
    | _ => cases posted
  · intro made reply replies done same applied
    subst same
    rcases replies with ⟨rfl,-⟩ | ⟨-,replayed⟩
    · exact ⟨_,rfl,rfl⟩
    · rw [applied] at replayed
      cases replayed

def settle (books : Books) (jobs : List Job) (turns : List Turn) : Machine Row CashboxHistory Movement (Except RpcError Answer) :=
  (Machine.start books.table books.journal books.nextId (jobs.map (·.request))).run turns

def Job.Makes (jobs : List Job) (who : Nat) : Guarantee Row CashboxHistory Movement := fun held made note writes entries =>
  ∃ job,jobs[who]? = some job ∧ Shifts job.moves held made note writes entries

theorem settle_sound (books : Books) (jobs : List Job) (turns : List Turn) :
    (settle books jobs turns).Sound RowLedger (Job.Makes jobs) fun _ => Applied := by
  apply run_sound
  apply start_sound books.keyed books.below books.journalBelow books.ledger
  intro who prog found
  rw [List.getElem?_map,Option.map_eq_some_iff] at found
  obtain ⟨job,here,rfl⟩ := found
  exact safe_mono (fun _ _ _ _ _ shifts => ⟨job,here,shifts⟩) (fun _ _ applied => applied) job.safe

-- The sessions whose request has been applied, in the order of their commits.
def appliedBy (log : List (Commit Row CashboxHistory Movement)) : List Nat :=
  log.filterMap fun commit => if commit.note.replays then none else some commit.who
def movedBy (jobs : List Job) (user : Nat) (type : CashboxType) (who : Nat) : Int :=
  (jobs[who]?).elim 0 fun job => moved job.moves user type

structure Tallied (books : Books) (jobs : List Job) (m : Machine Row CashboxHistory Movement (Except RpcError Answer)) : Prop where
  once : (appliedBy m.log).Nodup
  listed : ∀ who ∈ appliedBy m.log,who < jobs.length
  balances : ∀ user type,balanceOf m.table user type =
    balanceOf books.table user type + ((appliedBy m.log).map (movedBy jobs user type)).sum

theorem appliedBy_notes {m : Machine Row CashboxHistory Movement (Except RpcError Answer)} (member : who ∈ appliedBy m.log) :
    ∃ note ∈ m.notes who,note.replays = false := by
  obtain ⟨commit,inLog,same⟩ := List.mem_filterMap.mp member
  split at same
  · cases same
  · rename_i fresh
    cases same
    exact ⟨commit.note,List.mem_filterMap.mpr ⟨commit,inLog,by simp⟩,by simpa using fresh⟩

theorem sound_normal {m : Machine Row CashboxHistory Movement (Except RpcError Answer)} (sound : m.Sound RowLedger G A) :
    Normal m.table := by
  intro key cashbox stored
  have fits := sound.fits key
  rw [stored] at fits
  exact fits.1

theorem advance_tallied {m : Machine Row CashboxHistory Movement (Except RpcError Answer)}
    (sound : m.Sound RowLedger (Job.Makes jobs) fun _ => Applied) (tallied : Tallied books jobs m) (turn : Turn) :
    Tallied books jobs (m.advance turn) := by
  rcases advance_parts m turn with ⟨table,-,log⟩ | ⟨who,note,writes,entries,next,held,here,-,result⟩
  · exact ⟨log ▸ tallied.once,log ▸ tallied.listed,by rw [table,log]; exact tallied.balances⟩
  obtain ⟨job,listed,first,shifts⟩ := (sound.safe who _ here).2.2.2.1
  have known := sound.held who _ here
  have fresh : who ∉ appliedBy m.log := by
    intro member
    obtain ⟨earlier,noted,-⟩ := appliedBy_notes member
    rw [first] at noted
    cases noted
  rw [result]
  cases replay : note.replays with
  | true =>
    rw [replay,if_pos rfl] at shifts
    subst shifts
    have same : appliedBy (m.log ++ [⟨who,note,held,m.table,[],entries⟩]) = appliedBy m.log := by simp [appliedBy,replay]
    exact ⟨same ▸ tallied.once,same ▸ tallied.listed,fun user type => same ▸ tallied.balances user type⟩
  | false =>
    rw [replay,if_neg (by simp)] at shifts
    have grown : appliedBy (m.log ++ [⟨who,note,held,m.table,writes,entries⟩]) = appliedBy m.log ++ [who] := by
      simp [appliedBy,replay]
    refine ⟨?_,?_,?_⟩
    · rw [grown,List.nodup_append']
      exact ⟨tallied.once,List.nodup_singleton who,by simpa using fresh⟩
    · intro other member
      rw [grown] at member
      rcases List.mem_append.mp member with old | last
      · exact tallied.listed other old
      · cases List.mem_singleton.mp last
        exact (List.getElem?_eq_some_iff.mp listed).1
    · intro user type
      change balanceOf (applyWrites m.table writes) user type = _
      rw [shifts m.table sound.keyed (sound_normal sound) (fun h member => (known h member).1),tallied.balances,grown,
        List.map_append,List.sum_append,Int.add_assoc]
      simp [movedBy,listed]

theorem run_tallied {m : Machine Row CashboxHistory Movement (Except RpcError Answer)}
    (sound : m.Sound RowLedger (Job.Makes jobs) fun _ => Applied) (tallied : Tallied books jobs m) (turns : List Turn) :
    Tallied books jobs (m.run turns) := by
  induction turns generalizing m with
  | nil => exact tallied
  | cons turn rest ih => exact ih (advance_sound sound turn) (advance_tallied sound tallied turn)

-- Every job answered, and by its own commit, not as the repetition of an earlier one.
def AllApplied (jobs : List Job) (m : Machine Row CashboxHistory Movement (Except RpcError Answer)) : Prop :=
  ∀ who,who < jobs.length → ∃ done held,m.sessions[who]? = some ⟨.done (.ok done),held⟩ ∧ done.idempotent = false

theorem movedBy_sum (jobs : List Job) (user : Nat) (type : CashboxType) :
    ((List.range jobs.length).map (movedBy jobs user type)).sum = moved (jobs.flatMap (·.moves)) user type := by
  have same : (List.range jobs.length).map (movedBy jobs user type) = jobs.map fun job => moved job.moves user type := by
    apply List.ext_getElem
    · simp
    · intro index _ inside
      simp at inside
      simp [movedBy,inside]
  rw [same]
  clear same
  induction jobs with
  | nil => rfl
  | cons job rest ih => rw [List.map_cons,List.sum_cons,List.flatMap_cons,moved_append,ih]

-- Whatever the order of the commits, the balances move by all the jobs together.
theorem settle_balances (books : Books) (jobs : List Job) (turns : List Turn) (all : AllApplied jobs (settle books jobs turns))
    (user : Nat) (type : CashboxType) : balanceOf (settle books jobs turns).table user type =
      balanceOf books.table user type + moved (jobs.flatMap (·.moves)) user type := by
  have sound := settle_sound books jobs turns
  have tallied : Tallied books jobs (settle books jobs turns) := by
    apply run_tallied (settle_sound books jobs [])
    exact ⟨List.nodup_nil,nofun,fun user type => (Int.add_zero _).symm⟩
  have everyone : (appliedBy (settle books jobs turns).log).Perm (List.range jobs.length) := by
    apply (List.perm_ext_iff_of_nodup tallied.once List.nodup_range).mpr
    intro who
    rw [List.mem_range]
    refine ⟨tallied.listed who,fun inside => ?_⟩
    obtain ⟨done,held,answered,applied⟩ := all who inside
    obtain ⟨note,made,fresh⟩ := sound.safe who _ answered done rfl applied
    have noted : note ∈ (settle books jobs turns).notes who := by
      rw [made]
      exact List.mem_cons_self
    obtain ⟨commit,inLog,same⟩ := List.mem_filterMap.mp noted
    split at same
    · rename_i own
      cases same
      exact List.mem_filterMap.mpr ⟨commit,inLog,by simp [fresh,own]⟩
    · cases same
  rw [tallied.balances,(everyone.map _).sum_eq,movedBy_sum]

end Elchi.Finance
