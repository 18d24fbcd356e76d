import Mathlib.Data.Rat.Floor
import Elchi.Common
import Elchi.Interleaving
import Elchi.RowLock
namespace Elchi.Investors
open RowLock Interleaving

structure Investor where
  active : Bool
  isDeleted : Bool
deriving DecidableEq, Repr
structure Investment where
  investorId : Nat
  amount : Int
  investedAt : Int
  isDeleted : Bool
deriving DecidableEq, Repr
abbrev Period := Int × Int
-- `calculated` tells a run's share from one entered by hand; it is no column.
structure ProfitShare where
  investorId : Nat
  amount : Int
  percentage : Rat
  period : Period
  isPaid : Bool
  paidAt : Option Nat
  description : Option String
  isDeleted : Bool
  calculated : Bool
deriving DecidableEq
-- The id of a share is its place in the list.
structure Books where
  investors : Table Investor
  investments : List Investment
  shares : List ProfitShare

-- A date that was sent reads as a time or as no date at all.
structure CalculateProfitDto where
  investorId : Option Nat
  periodStart : Option (Option Int)
  periodEnd : Option (Option Int)
  percentage : Rat
  description : Option String
structure ProfitReply where
  calculatedCount : Nat
  skippedCount : Nat
  items : List Nat
  message : String
deriving DecidableEq, Repr

inductive Stage where
  | called
  | totals (investors : List Nat)
  | looking (investors : List Nat)
  | inserting (investorId : Nat) (rest : List Nat) (seen : Nat)
  | done (reply : Except RpcError ProfitReply)
-- A calculateProfit run: what it has read, what it has made so far, and the statement it is at.
structure Run where
  input : CalculateProfitDto
  period : Period
  found : Table Investor
  totals : Nat → Int
  result : List Nat
  skipped : Nat
  stage : Stage

-- A statement succeeds, fails, or succeeds without its answer reaching the run.
inductive Fate where
  | goes | lost | fails
deriving DecidableEq, Repr
inductive Event where
  | investor (key : Nat) (row : Investor)
  | investments (rows : List Investment)
  | createProfitShare (row : ProfitShare)
  | markProfitPaid (key now : Nat)

def internal : RpcError := ⟨500,"Internal server error"⟩
def parseDate (value : Option (Option Int)) (fieldName : String) : Except RpcError (Option Int) :=
  match value with
  | none => .ok none
  | some none => .error (badRequest (fieldName ++ " is invalid"))
  | some (some time) => .ok (some time)
def checkInput (input : CalculateProfitDto) : Except RpcError Period := do
  let periodStart ← parseDate input.periodStart "period_start"
  let periodEnd ← parseDate input.periodEnd "period_end"
  match periodStart,periodEnd with
  | some first,some last =>
    if first > last then .error (badRequest "period_start must be less than or equal to period_end")
    else if input.percentage < 0 ∨ input.percentage > 100 then .error (badRequest "percentage must be between 0 and 100")
    else .ok (first,last)
  | _,_ => .error (badRequest "period_start and period_end are required")

-- toFixed(2) of so'm, in tiyin.
def shareAmount (total : Int) (percentage : Rat) : Int := ⌊(total * percentage) / 100 + 1/2⌋
def totalsOf (investments : List Investment) (periodEnd : Int) (investorId : Nat) : Int :=
  ((investments.filter fun row => !row.isDeleted && decide (0 ≤ row.investedAt) && decide (row.investedAt ≤ periodEnd) &&
    row.investorId == investorId).map (·.amount)).sum
def profitMessage (skipped : Nat) : String :=
  if skipped > 0 then "profit calculated (" ++ toString skipped ++ " ta investor uchun bu davr allaqachon hisoblangan — o'tkazib yuborildi)"
  else "profit calculated"

-- The investors a run works on, in the table it found them in.
def coveredIn (input : CalculateProfitDto) (found : Table Investor) : List Nat :=
  match input.investorId with
  | some id => [id]
  | none => (found.select fun _ row => row.active && !row.isDeleted).map (·.1)
def Run.covered (run : Run) : List Nat := coveredIn run.input run.found
def existing (g : Books) (investorId : Nat) (period : Period) : Bool :=
  g.shares.any fun row => row.investorId == investorId && row.period == period && !row.isDeleted
def Run.share (run : Run) (investorId : Nat) : ProfitShare :=
  ⟨investorId,shareAmount (run.totals investorId) run.input.percentage,run.input.percentage,run.period,false,none,
   (run.input.description.filter (· ≠ "")).map jsTrim,false,true⟩

def Run.ends (run : Run) (error : RpcError) : Run := {run with stage:=.done (.error error)}
def startRun (input : CalculateProfitDto) : Run :=
  match checkInput input with
  | .error error => ⟨input,(0,0),[],fun _ => 0,[],0,.done (.error error)⟩
  | .ok period => ⟨input,period,[],fun _ => 0,[],0,.called⟩
def loadInvestors (g : Books) (run : Run) : Run :=
  match run.input.investorId with
  | some id => match g.investors.row id with
    | some row => if row.isDeleted then run.ends (notFound "investor not found") else {run with found:=g.investors,stage:=.totals [id]}
    | none => run.ends (notFound "investor not found")
  | none => {run with found:=g.investors,stage:=.totals (coveredIn run.input g.investors)}
-- One statement of the run.
def nextRun (_who : Nat) (fate : Fate) (g : Books) (run : Run) : Books × Run :=
  match run.stage with
  | .called => (g,if fate = .goes then loadInvestors g run else run.ends internal)
  | .totals investors =>
    (g,if fate = .goes then {run with totals:=totalsOf g.investments run.period.2,stage:=.looking investors} else run.ends internal)
  | .looking [] => (g,{run with stage:=.done (.ok ⟨run.result.length,run.skipped,run.result,profitMessage run.skipped⟩)})
  | .looking (id :: rest) =>
    (g,if fate = .goes then
        if existing g id run.period then {run with skipped:=run.skipped+1,stage:=.looking rest}
        else {run with stage:=.inserting id rest g.shares.length}
      else run.ends internal)
  | .inserting id rest _ =>
    match fate with
    | .goes => ({g with shares:=g.shares ++ [run.share id]},{run with result:=run.result ++ [g.shares.length],stage:=.looking rest})
    | .lost => ({g with shares:=g.shares ++ [run.share id]},run.ends internal)
    | .fails => (g,run.ends internal)
  | .done _ => (g,run)
def happen : Event → Books → Books
  | .investor key row,g => {g with investors:=(Write.insert key row).apply g.investors}
  | .investments rows,g => {g with investments:=rows}
  | .createProfitShare row,g => {g with shares:=g.shares ++ [{row with isDeleted:=false,calculated:=false}]}
  | .markProfitPaid key now,g => {g with shares:=g.shares.modify key fun row => {row with isPaid:=true,paidAt:=some now}}
def profits : System Books Run CalculateProfitDto Fate Event := ⟨startRun,nextRun,happen⟩
abbrev ProfitTurn := Interleaving.Turn CalculateProfitDto Fate Event
abbrev ProfitRun := Interleaving.Machine Books Run

-- What of a share the lookups and the law look at.
abbrev Key := Nat × Period
structure Tag where
  key : Key
  live : Bool
  calculated : Bool
deriving DecidableEq, Repr
def ProfitShare.tag (row : ProfitShare) : Tag := ⟨(row.investorId,row.period),!row.isDeleted,row.calculated⟩
def Books.tags (g : Books) : List Tag := g.shares.map ProfitShare.tag
def Once (g : Books) : Prop := ∀ key,g.tags.count ⟨key,true,true⟩ ≤ 1
def HasShare (g : Books) (key : Key) : Prop := ∃ tag ∈ g.tags,tag.key = key ∧ tag.live = true
-- No other run has inserted the share since this one looked for it.
def Fresh (m : ProfitRun) : ProfitTurn → Prop
  | .step who fate => ∀ run ∈ m.workers[who]?,match run.stage with
    | .inserting id _ seen => fate ≠ .fails → (⟨(id,run.period),true,true⟩ : Tag) ∉ m.shared.tags.drop seen
    | _ => True
  | _ => True

-- What a run may rely on where it stands: the shares of the investors behind it, and that its
-- lookup found none.
def Served (g : Books) (run : Run) (rest : List Nat) : Prop :=
  ∃ front,run.covered = front ++ rest ∧ ∀ id ∈ front,HasShare g (id,run.period)
def At (_who : Nat) (g : Books) (run : Run) : Prop :=
  match run.stage with
  | .called => True
  | .totals investors => run.covered = investors
  | .looking investors => Served g run investors
  | .inserting id rest seen => Served g run (id :: rest) ∧ seen ≤ g.tags.length ∧ ∀ tag ∈ g.tags.take seen,tag.key = (id,run.period) → tag.live = false
  | .done (.ok _) => Served g run []
  | .done (.error _) => True

section Tags
variable {g later : Books}

theorem hasShare_grows (grown : g.tags <+: later.tags) {key : Key} (has : HasShare g key) : HasShare later key := by
  obtain ⟨tag,member,facts⟩ := has
  exact ⟨tag,grown.subset member,facts⟩
theorem served_grows (grown : g.tags <+: later.tags) {run : Run} {rest : List Nat} (served : Served g run rest) : Served later run rest := by
  obtain ⟨front,split,each⟩ := served
  exact ⟨front,split,fun id member => hasShare_grows grown (each id member)⟩
theorem at_grows (grown : g.tags <+: later.tags) {run : Run} (at_ : At who g run) : At who later run := by
  unfold At at at_ ⊢
  split at at_
  · trivial
  · exact at_
  · exact served_grows grown at_
  · rename_i seen _
    obtain ⟨served,inside,none⟩ := at_
    refine ⟨served_grows grown served,inside.trans grown.length_le,?_⟩
    obtain ⟨more,same⟩ := grown
    rw [←same,List.take_append_of_le_length inside]
    exact none
  · exact served_grows grown at_
  · trivial

theorem existing_tag {investorId : Nat} {period : Period} :
    existing g investorId period = true ↔ HasShare g (investorId,period) := by
  simp only [existing,List.any_eq_true,HasShare,Books.tags,List.mem_map,Bool.and_eq_true,beq_iff_eq]
  constructor
  · rintro ⟨row,member,⟨rfl,rfl⟩,live⟩
    exact ⟨row.tag,⟨row,member,rfl⟩,rfl,live⟩
  · rintro ⟨tag,⟨row,member,rfl⟩,key,live⟩
    cases key
    exact ⟨row,member,⟨rfl,rfl⟩,live⟩
theorem insert_tags (g : Books) (run : Run) (id : Nat) :
    Books.tags {g with shares:=g.shares ++ [run.share id]} = g.tags ++ [⟨(id,run.period),true,true⟩] := by
  simp [Books.tags,ProfitShare.tag,Run.share]

end Tags

-- No statement and no other request takes a share away.
theorem next_grows (who : Nat) (fate : Fate) (g : Books) (run : Run) : g.tags <+: (nextRun who fate g run).1.tags := by
  unfold nextRun
  split
  · exact List.prefix_rfl
  · exact List.prefix_rfl
  · exact List.prefix_rfl
  · exact List.prefix_rfl
  · cases fate with
    | goes => exact (insert_tags g run _).symm ▸ List.prefix_append _ _
    | lost => exact (insert_tags g run _).symm ▸ List.prefix_append _ _
    | fails => exact List.prefix_rfl
  · exact List.prefix_rfl
theorem modify_tags (g : Books) (key now : Nat) : (happen (.markProfitPaid key now) g).tags = g.tags := by
  simp only [happen,Books.tags]
  apply List.ext_getElem?
  intro index
  rw [List.getElem?_map,List.getElem?_map,List.getElem?_modify]
  cases g.shares[index]? with
  | none => rfl
  | some row =>
    simp only [Option.map_some]
    split
    · rfl
    · rfl
theorem happen_grows (event : Event) (g : Books) : g.tags <+: (happen event g).tags := by
  cases event with
  | investor key row => exact List.prefix_rfl
  | investments rows => exact List.prefix_rfl
  | createProfitShare row => simp [happen,Books.tags]
  | markProfitPaid key now => exact (modify_tags g key now).symm ▸ List.prefix_rfl

theorem load_stands (who : Nat) (g : Books) (run : Run) : At who g (loadInvestors g run) := by
  unfold loadInvestors
  split
  · rename_i id given
    split
    · split
      · trivial
      · show Run.covered _ = [id]
        simp [Run.covered,coveredIn,given]
    · trivial
  · rfl
-- A served front grows by the investor whose share is found or inserted.
theorem served_snoc {g : Books} {run : Run} {id : Nat} {rest : List Nat} (served : Served g run (id :: rest))
    (has : HasShare g (id,run.period)) : Served g run rest := by
  obtain ⟨front,split,each⟩ := served
  refine ⟨front ++ [id],by simpa using split,fun other member => ?_⟩
  rcases List.mem_append.mp member with before | last
  · exact each other before
  · rw [List.mem_singleton.mp last]
    exact has
theorem insert_served {g : Books} {run : Run} {id : Nat} {rest : List Nat} (served : Served g run (id :: rest)) :
    Served {g with shares:=g.shares ++ [run.share id]} run rest := by
  have tags := insert_tags g run id
  refine served_snoc (served_grows (tags.symm ▸ List.prefix_append _ _) served) ⟨⟨(id,run.period),true,true⟩,?_,rfl,rfl⟩
  rw [tags]
  simp
theorem next_stands {who : Nat} {g : Books} {run : Run} (at_ : At who g run) (fate : Fate) :
    At who (nextRun who fate g run).1 (nextRun who fate g run).2 := by
  unfold nextRun
  split
  · split
    · exact load_stands who g run
    · trivial
  · rename_i investors here
    simp only [At,here] at at_
    split
    · exact ⟨[],at_,nofun⟩
    · trivial
  · rename_i here
    simp only [At,here] at at_
    exact at_
  · rename_i id rest here
    simp only [At,here] at at_
    split
    · split
      · rename_i found
        exact served_snoc at_ (existing_tag.mp found)
      · rename_i absent
        refine ⟨at_,by simp [Books.tags],fun tag member key => ?_⟩
        refine Bool.eq_false_iff.mpr fun live => absent (existing_tag.mpr ⟨tag,List.mem_of_mem_take member,key,live⟩)
    · trivial
  · rename_i id rest seen here
    simp only [At,here] at at_
    cases fate with
    | goes => exact insert_served at_.1
    | lost => trivial
    | fails => trivial
  · exact at_

theorem start_stands (who : Nat) (g : Books) (input : CalculateProfitDto) : At who g (startRun input) := by
  unfold startRun
  split
  · trivial
  · trivial
theorem profits_keeps : profits.Keeps (fun _ _ => True) (fun _ _ => True) At where
  arrive m request _ _ := ⟨trivial,start_stands m.workers.length m.shared request⟩
  own _ who choice worker holds _ here := ⟨trivial,next_stands (holds.2 who worker here) choice⟩
  others m who choice worker other idle holds _ _ _ there :=
    at_grows (next_grows who choice m.shared worker) (holds.2 other idle there)
  world m event holds _ := ⟨trivial,fun who worker here => at_grows (happen_grows event m.shared) (holds.2 who worker here)⟩

theorem once_added {g later : Books} {tag : Tag} (once : Once g) (added : later.tags = g.tags ++ [tag]) (own : tag = ⟨tag.key,true,true⟩) :
    Once later ↔ tag ∉ g.tags := by
  constructor
  · intro single
    have here := single tag.key
    rw [added,←own,List.count_append,List.count_singleton_self] at here
    exact List.count_eq_zero.mp (by omega)
  · intro absent key
    rw [added,List.count_append,List.count_singleton]
    by_cases same : tag = ⟨key,true,true⟩
    · rw [←same,List.count_eq_zero.mpr absent]
      simp
    · have apart : (tag == ⟨key,true,true⟩) = false := beq_eq_false_iff_ne.mpr same
      simpa [apart] using once key
theorem once_insert {g : Books} {run : Run} {id seen : Nat} (once : Once g)
    (looked : ∀ tag ∈ g.tags.take seen,tag.key = (id,run.period) → tag.live = false) :
    Once {g with shares:=g.shares ++ [run.share id]} ↔ (⟨(id,run.period),true,true⟩ : Tag) ∉ g.tags.drop seen := by
  rw [once_added once (insert_tags g run id) rfl,not_iff_not]
  constructor
  · intro member
    rw [←List.take_append_drop seen g.tags] at member
    rcases List.mem_append.mp member with before | after
    · cases looked _ before rfl
    · exact after
  · exact List.mem_of_mem_drop
theorem once_happen {g : Books} (once : Once g) (event : Event) : Once (happen event g) := by
  cases event with
  | investor key row => exact once
  | investments rows => exact once
  | createProfitShare row =>
    intro key
    simpa [happen,Books.tags,ProfitShare.tag,List.count_singleton] using once key
  | markProfitPaid key now =>
    intro other
    rw [modify_tags]
    exact once other

-- One turn keeps the shares single exactly when it is fresh.
theorem turn_once {m : ProfitRun} (holds : m.Holds (fun _ _ => True) At) (once : Once m.shared) (turn : ProfitTurn) :
    Once (profits.advance m turn).shared ↔ Fresh m turn := by
  cases turn with
  | arrive input => exact iff_of_true once trivial
  | world event => exact iff_of_true (once_happen once event) trivial
  | step who fate =>
    cases here : m.workers[who]? with
    | none =>
      rw [idle_step here]
      exact iff_of_true once fun run member => by rw [here] at member; cases member
    | some run =>
      have at_ := holds.2 who run here
      have only : Fresh m (.step who fate) ↔ match run.stage with
          | .inserting id _ seen => fate ≠ .fails → (⟨(id,run.period),true,true⟩ : Tag) ∉ m.shared.tags.drop seen
          | _ => True := by
        simp only [Fresh,here,Option.mem_some_iff]
        exact ⟨fun each => each run rfl,fun fresh other same => same ▸ fresh⟩
      rw [shared_step here,only]
      show Once (nextRun who fate m.shared run).1 ↔ _
      cases stage : run.stage with
      | inserting id rest seen =>
        simp only [At,stage] at at_
        simp only [nextRun,stage]
        cases fate with
        | goes => simpa using once_insert once at_.2.2
        | lost => simpa using once_insert once at_.2.2
        | fails => simpa using once
      | called => simpa [nextRun,stage] using once
      | totals investors => simpa [nextRun,stage] using once
      | looking investors =>
        cases investors with
        | nil => simpa [nextRun,stage] using once
        | cons id rest => simpa [nextRun,stage] using once
      | done reply => simpa [nextRun,stage] using once

-- What calculateProfit promises: one live share of its own at most, and one for each investor a
-- completed run worked on.
def empty (investors : Table Investor) (investments : List Investment) : Books := ⟨investors,investments,[]⟩
def Completed (run : Run) : Prop := ∃ reply,run.stage = .done (.ok reply)

theorem shared_once_exact (investors : Table Investor) (investments : List Investment) (turns : List ProfitTurn) :
    (Runs.Meets profits.advance Fresh ⟨empty investors investments,[]⟩ turns ↔
      ∀ front,front <+: turns → Once (profits.run (empty investors investments) front).shared) ∧
    ∀ (who : Nat) (run : Run),(profits.run (empty investors investments) turns).workers[who]? = some run → Completed run →
      ∀ id ∈ run.covered,HasShare (profits.run (empty investors investments) turns).shared (id,run.period) := by
  constructor
  · have keeps : ∀ (m : ProfitRun) (turn : ProfitTurn),m.Holds (fun _ _ => True) At ∧ Once m.shared → Fresh m turn →
        (profits.advance m turn).Holds (fun _ _ => True) At ∧ Once (profits.advance m turn).shared :=
      fun m turn both fresh => ⟨advance_holds profits_keeps both.1 trivial,(turn_once both.1 both.2 turn).mpr fresh⟩
    have breaks : ∀ (m : ProfitRun) (turn : ProfitTurn),m.Holds (fun _ _ => True) At ∧ Once m.shared → ¬ Fresh m turn →
        ¬ Once (profits.advance m turn).shared :=
      fun m turn both stale once => stale ((turn_once both.1 both.2 turn).mp once)
    have opening : Once (empty investors investments) := fun key => by simp [empty,Books.tags]
    exact Runs.meets_exactly keeps (fun m both => both.2) breaks ⟨start_holds trivial,opening⟩
  · intro who run here completed id member
    have holds : (profits.run (empty investors investments) turns).Holds (fun _ _ => True) At :=
      run_holds profits_keeps trivial (Runs.meets_mem fun _ _ => trivial)
    have at_ := holds.2 who run here
    obtain ⟨reply,stage⟩ := completed
    simp only [At,stage] at at_
    obtain ⟨front,split,each⟩ := at_
    rw [split,List.append_nil] at member
    exact each id member

-- Two clicks on one period: both runs look before either inserts.
def january : CalculateProfitDto := ⟨none,some (some 0),some (some 2678400000),10,none⟩
def oneInvestor : Table Investor := [(1,⟨true,false⟩)]
def doubleClick : List ProfitTurn :=
  [.arrive january,.arrive january] ++ (List.replicate 4 [.step 0 .goes,.step 1 .goes]).flatten

theorem double_click_pays_twice :
    (profits.run (empty oneInvestor [⟨1,100000000,0,false⟩]) doubleClick).shared.shares.map (fun row => (row.investorId,row.amount)) =
      [(1,10000000),(1,10000000)] ∧
    ¬Once (profits.run (empty oneInvestor [⟨1,100000000,0,false⟩]) doubleClick).shared := by
  refine ⟨by decide +kernel,fun once => ?_⟩
  have twice : (profits.run (empty oneInvestor [⟨1,100000000,0,false⟩]) doubleClick).shared.tags.count ⟨(1,0,2678400000),true,true⟩ = 2 := by
    decide
  have single := once (1,0,2678400000)
  rw [twice] at single
  omega

end Elchi.Investors
