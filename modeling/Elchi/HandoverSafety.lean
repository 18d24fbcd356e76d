import Elchi.HandoverHistory
import Mathlib.Data.List.Perm.Subperm
namespace Elchi.Handovers
open RowLock hiding Machine Turn
open Interleaving Orders Batches
variable {hash : String → String}

-- A statement that commits nothing: only the request's own locks and the presented tokens move.
structure Quiet (who : Nat) (g g' : Desk) : Prop where
  now : g'.now = g.now
  sessions : g'.sessions = g.sessions
  nextSessionId : g'.nextSessionId = g.nextSessionId
  depot : g'.depot = g.depot
  deeds : g'.deeds = g.deeds
  exclusive : g.locks.Exclusive → g'.locks.Exclusive
  held : ∀ row other,other ≠ who → (row,other) ∈ g.locks → (row,other) ∈ g'.locks
  presented : ∀ entry ∈ g'.presented,entry ∈ g.presented ∨ entry.2 = g.now
  kept : ∀ entry ∈ g.presented,entry ∈ g'.presented

theorem quiet_refl (who : Nat) (g : Desk) : Quiet who g g :=
  ⟨rfl,rfl,rfl,rfl,rfl,id,fun _ _ _ held => held,fun _ member => .inl member,fun _ member => member⟩
theorem quiet_release (who : Nat) (g : Desk) : Quiet who g (g.release who) :=
  ⟨rfl,rfl,rfl,rfl,rfl,fun exclusive => exclusive_release exclusive who,fun _ _ apart held => release_other held apart,
    fun _ member => .inl member,fun _ member => member⟩
theorem quiet_lock {who : Nat} {g : Desk} (free : g.locks.free who row = true) : Quiet who g (g.lock who row) :=
  ⟨rfl,rfl,rfl,rfl,rfl,fun exclusive => exclusive_take exclusive free,fun _ _ _ held => .tail _ held,
    fun _ member => .inl member,fun _ member => member⟩
theorem quiet_present (who : Nat) (g : Desk) (token : String) : Quiet who g {g with presented:=(token,g.now) :: g.presented} := by
  refine ⟨rfl,rfl,rfl,rfl,rfl,id,fun _ _ _ held => held,fun entry member => ?_,fun _ member => .tail _ member⟩
  rcases List.mem_cons.mp member with rfl | old
  · exact .inr rfl
  · exact .inl old

-- Everything one statement can do.
inductive Change (hash : String → String) (who : Nat) (g : Desk) : Clerk → Desk → Clerk → Prop where
  | quiet (quiet : Quiet who g g') (unclosed : ∀ closure,clerk' ≠ .closed closure) : Change hash who g clerk g' clerk'
  | answered (done : clerk.answered = true) : Change hash who g clerk g clerk
  | deleted (replaced : List Nat) :
      Change hash who g (.deleting ticket [] replaced) {g.release who with sessions:=markDeleted replaced g.sessions} (.inserting ticket)
  | issued (unused : ∀ entry ∈ g.sessions,entry.2.qrTokenHash ≠ hash ticket.qrToken) :
      Change hash who g (.inserting ticket)
        {g with
          sessions:=g.sessions.put g.nextSessionId (newSession hash ticket),nextSessionId:=g.nextSessionId+1,
          deeds:=g.deeds ++ [.issued g.nextSessionId ticket]} (.issued ticket)
  | scanned {id : Nat}
      (unused : ∀ entry ∈ g.sessions,entry.1 ≠ id → entry.2.authorizationTokenHash ≠ some (hash scan.authorizationToken)) :
      Change hash who g (.saving id scan)
        {g.release who with
          sessions:=(Write.update id (scan.save hash)).apply g.sessions,deeds:=g.deeds ++ [.scanned id scan]} (.authorized scan)
  | closed {handover : Handover} (all : found.length = handover.orderIds.length) :
      Change hash who g (.locking handover now session [] found)
        ((⟨who,handover,now,session,found⟩ : Closure).apply (g.release who)) (.closed ⟨who,handover,now,session,found⟩)

theorem next_change (hash : String → String) (who : Nat) (fate : Fate) (g : Desk) (clerk : Clerk) :
    Change hash who g clerk (nextStatement hash who fate g clerk).1 (nextStatement hash who fate g clerk).2 := by
  have refuses : ∀ error,Change hash who g clerk (g.refuse who error).1 (g.refuse who error).2 :=
    fun error => .quiet (quiet_release who g) (fun _ => nofun)
  unfold nextStatement
  by_cases done : clerk.answered = true
  · rw [if_pos done]
    exact .answered done
  rw [if_neg done]
  cases fate with
  | fails error => exact refuses error
  | dies => exact .quiet (quiet_release who g) (fun _ => nofun)
  | goes random =>
    cases clerk with
    | creating input =>
      simp only [Clerk.go]
      split
      · exact .quiet (quiet_refl who g) (fun _ => nofun)
      · exact .quiet (quiet_refl who g) (fun _ => nofun)
    | replacing ticket => exact .quiet (quiet_refl who g) (fun _ => nofun)
    | deleting ticket pending replaced =>
      cases pending with
      | nil => exact .deleted replaced
      | cons id pending =>
        simp only [Clerk.go,replaceSessions]
        split
        · rename_i free
          exact .quiet (quiet_lock free) (fun _ => nofun)
        · exact .quiet (quiet_refl who g) (fun _ => nofun)
    | inserting ticket =>
      simp only [Clerk.go,insertSession]
      split
      · exact refuses _
      · rename_i unused
        exact .issued (by simpa using unused)
    | scanning input =>
      simp only [Clerk.go]
      split
      · exact .quiet (quiet_refl who g) (fun _ => nofun)
      · exact .quiet (quiet_present who g _) (fun _ => nofun)
    | seeking qrToken staff =>
      simp only [Clerk.go,seekQr]
      split
      · exact refuses _
      · split
        · rename_i free
          split
          · exact refuses _
          · exact .quiet (quiet_lock free) (fun _ => nofun)
        · exact .quiet (quiet_refl who g) (fun _ => nofun)
    | saving id scan =>
      simp only [Clerk.go,saveScan]
      split
      · exact refuses _
      · rename_i unused
        refine .scanned fun entry member apart same => unused (List.any_eq_true.mpr ⟨entry,member,?_⟩)
        simp [apart,same]
    | completing input =>
      simp only [Clerk.go]
      split
      · exact .quiet (quiet_refl who g) (fun _ => nofun)
      · exact .quiet (quiet_present who g _) (fun _ => nofun)
    | admitting handover now =>
      simp only [Clerk.go,admitHandover]
      split
      · exact .quiet (quiet_refl who g) (fun _ => nofun)
      · split
        · exact refuses _
        · split
          · rename_i free
            split
            · exact refuses _
            · exact .quiet (quiet_lock free) (fun _ => nofun)
          · exact .quiet (quiet_refl who g) (fun _ => nofun)
    | selecting handover now session => exact .quiet (quiet_refl who g) (fun _ => nofun)
    | locking handover now session pending found =>
      cases pending with
      | nil =>
        simp only [Clerk.go,lockOrders]
        split
        · exact refuses _
        · rename_i all
          exact .closed (by simpa using all)
      | cons id pending =>
        simp only [Clerk.go,lockOrders]
        split
        · rename_i free
          exact .quiet (quiet_lock free) (fun _ => nofun)
        · exact .quiet (quiet_refl who g) (fun _ => nofun)
    | issued _ | authorized _ | closed _ | refused _ | dead => exact absurd rfl done

def undeleted (session : HandoverSession) : HandoverSession := {session with isDeleted:=false}

-- The stored rows are the passports of what was committed, and the protocol allowed all of it.
structure Ledger (hash : String → String) (count : Nat) (g : Desk) : Prop where
  exclusive : g.locks.Exclusive
  keyed : g.sessions.Keyed
  below : ∀ id session,g.sessions.row id = some session → id < g.nextSessionId
  refines : ∀ id,(g.sessions.row id).map undeleted = ((passports g.deeds).row id).map (Passport.session hash)
  history : History g.deeds
  authors : ∀ closure,.closed closure ∈ g.deeds → closure.who < count
  past : ∀ id passport scan,(passports g.deeds).row id = some passport → passport.scan = some scan → scan.scannedAt ≤ g.now ∧
    ∀ time,(scan.authorizationToken,time) ∈ g.presented → scan.scannedAt ≤ time
  ordersKeyed : g.depot.orders.Keyed

-- What a request has made sure of where it stands.
def Secured (who : Nat) (g : Desk) (handover : Handover) (now : Nat) (session : Option Nat) : Prop :=
  Authorized (passports g.deeds) handover now session ∧ ∀ id,session = some id → (LockedRow.session id,who) ∈ g.locks
structure Found (who : Nat) (g : Desk) (handover : Handover) (pending : List Nat) (found : Table OrderRow) : Prop where
  distinct : (pending ++ found.map (·.1)).Nodup
  asked : ∀ id ∈ pending ++ found.map (·.1),id ∈ handover.orderIds
  locked : ∀ entry ∈ found,(LockedRow.order entry.1,who) ∈ g.locks ∧ g.depot.orders.row entry.1 = some entry.2 ∧
    handoverReady handover.marketId entry.2.order = true
def Stands (who : Nat) (g : Desk) : Clerk → Prop
  | .saving id scan => (LockedRow.session id,who) ∈ g.locks ∧
      (∃ passport,(passports g.deeds).row id = some passport ∧ passport.scan = none ∧
        passport.ticket.qrToken = scan.qrToken ∧ scan.scannedAt < passport.ticket.expiresAt) ∧
      scan.scannedAt ≤ g.now ∧ ∀ time,(scan.authorizationToken,time) ∈ g.presented → scan.scannedAt ≤ time
  | .admitting handover now => (handover.authorizationToken,now) ∈ g.presented
  | .selecting handover now session => Secured who g handover now session
  | .locking handover now session pending found => Secured who g handover now session ∧ Found who g handover pending found
  | _ => True
def At (who : Nat) (g : Desk) (clerk : Clerk) : Prop :=
  (∀ closure,.closed closure ∈ g.deeds → closure.who = who → clerk = .closed closure) ∧ Stands who g clerk

-- Orders that are not handed over keep their rows.
theorem handOver_spares {id : Nat} {orders : Table OrderRow} (absent : id ∉ orders.map (·.1)) (depot : Depot) :
    (handOver now requesterId orders depot).orders.row id = depot.orders.row id := by
  induction orders generalizing depot with
  | nil => rfl
  | cons entry rest ih =>
    simp only [List.map_cons,List.mem_cons,not_or] at absent
    rw [handOver,ih absent.2]
    dsimp only [closeCustody]
    rw [Batches.update_row,if_neg (Ne.symm absent.1)]
theorem handOver_keyed (orders : Table OrderRow) {depot : Depot} (keyed : depot.orders.Keyed) :
    (handOver now requesterId orders depot).orders.Keyed := by
  induction orders generalizing depot with
  | nil => exact keyed
  | cons entry rest ih => exact ih (apply_keyed _ keyed)

section Refines
variable {count : Nat} {g : Desk} (ledger : Ledger hash count g)
include ledger

theorem session_passport {id : Nat} (stored : g.sessions.row id = some session) : ∃ passport,
    (passports g.deeds).row id = some passport ∧ undeleted session = passport.session hash := by
  have refined := ledger.refines id
  rw [stored,Option.map_some] at refined
  obtain ⟨passport,here,same⟩ := Option.map_eq_some_iff.mp refined.symm
  exact ⟨passport,here,same.symm⟩
theorem passport_session {id : Nat} (here : (passports g.deeds).row id = some passport) : ∃ session,
    g.sessions.row id = some session ∧ undeleted session = passport.session hash := by
  have refined := ledger.refines id
  rw [here,Option.map_some] at refined
  exact Option.map_eq_some_iff.mp refined
theorem no_session {id : Nat} (absent : g.sessions.row id = none) : (passports g.deeds).row id = none := by
  have refined := ledger.refines id
  rw [absent,Option.map_none] at refined
  exact Option.map_eq_none_iff.mp refined.symm

theorem quiet_ledger (quiet : Quiet who g g') : Ledger hash count g' := by
  refine ⟨quiet.exclusive ledger.exclusive,?_,?_,?_,?_,?_,?_,?_⟩
  · rw [quiet.sessions]; exact ledger.keyed
  · rw [quiet.sessions,quiet.nextSessionId]; exact ledger.below
  · rw [quiet.sessions,quiet.deeds]; exact ledger.refines
  · rw [quiet.deeds]; exact ledger.history
  · rw [quiet.deeds]; exact ledger.authors
  · intro id passport scan here scanned
    rw [quiet.deeds] at here
    obtain ⟨earlier,times⟩ := ledger.past id passport scan here scanned
    refine ⟨quiet.now ▸ earlier,fun time member => ?_⟩
    rcases quiet.presented _ member with old | new
    · exact times time old
    · have presentedNow : time = g.now := new
      omega
  · rw [quiet.depot]; exact ledger.ordersKeyed

theorem deleted_ledger (who : Nat) (replaced : List Nat) :
    Ledger hash count {g.release who with sessions:=markDeleted replaced g.sessions} := by
  have row := map_row g.sessions (markSession replaced)
  refine ⟨exclusive_release ledger.exclusive who,map_keyed (markSession replaced) ledger.keyed,?_,fun id => ?_,ledger.history,
    ledger.authors,ledger.past,ledger.ordersKeyed⟩
  · intro id session stored
    obtain ⟨before,here,-⟩ := Option.map_eq_some_iff.mp ((row id).symm.trans stored)
    exact ledger.below id before here
  · have same : undeleted ∘ markSession replaced id = undeleted := by
      funext session
      simp only [Function.comp_apply,markSession]
      split
      · rfl
      · rfl
    calc ((markDeleted replaced g.sessions).row id).map undeleted
      _ = ((g.sessions.row id).map (markSession replaced id)).map undeleted := congrArg (Option.map undeleted) (row id)
      _ = (g.sessions.row id).map undeleted := by rw [Option.map_map,same]
      _ = _ := ledger.refines id

theorem issued_ledger {ticket : QrTicket} (unused : ∀ entry ∈ g.sessions,entry.2.qrTokenHash ≠ hash ticket.qrToken) :
    Ledger hash count {g with
      sessions:=g.sessions.put g.nextSessionId (newSession hash ticket),nextSessionId:=g.nextSessionId+1,
      deeds:=g.deeds ++ [.issued g.nextSessionId ticket]} := by
  have free : g.sessions.row g.nextSessionId = none := by
    cases stored : g.sessions.row g.nextSessionId with
    | none => rfl
    | some session => exact absurd (ledger.below _ session stored) (Nat.lt_irrefl _)
  have allowed : Allowed (passports g.deeds) (.issued g.nextSessionId ticket) := by
    refine ⟨no_session ledger free,fun other passport here same => ?_⟩
    obtain ⟨session,stored,shown⟩ := passport_session ledger here
    have hashed : session.qrTokenHash = hash passport.ticket.qrToken := congrArg HandoverSession.qrTokenHash shown
    exact unused (other,session) ((row_exact ledger.keyed).mpr stored) (hashed.trans (congrArg hash same))
  have row := fun id => (congrArg (Table.row · id) (passports_snoc g.deeds (.issued g.nextSessionId ticket))).trans (effect_issued _ _ ticket id)
  refine ⟨ledger.exclusive,put_keyed ledger.keyed _ _,?_,fun id => ?_,history_snoc ledger.history allowed,?_,?_,ledger.ordersKeyed⟩
  · intro id session stored
    dsimp only at stored ⊢
    rw [row_put] at stored
    split at stored
    · omega
    · exact Nat.lt_succ_of_lt (ledger.below id session stored)
  · dsimp only
    rw [row id,row_put]
    split
    · rfl
    · exact ledger.refines id
  · intro closure member
    rcases mem_snoc member with before | same
    · exact ledger.authors closure before
    · cases same
  · intro id passport scan here scanned
    dsimp only at here
    rw [row id] at here
    split at here
    · cases here
      cases scanned
    · exact ledger.past id passport scan here scanned

theorem scanned_ledger {id : Nat} {scan : Scan} (stands : Stands who g (.saving id scan))
    (unused : ∀ entry ∈ g.sessions,entry.1 ≠ id → entry.2.authorizationTokenHash ≠ some (hash scan.authorizationToken)) :
    Ledger hash count {g.release who with
      sessions:=(Write.update id (scan.save hash)).apply g.sessions,deeds:=g.deeds ++ [.scanned id scan]} := by
  obtain ⟨-,⟨target,found,unscanned,token,inTime⟩,past,presentedLater⟩ := stands
  have allowed : Allowed (passports g.deeds) (.scanned id scan) := by
    refine ⟨⟨target,found,unscanned,token,inTime⟩,fun other passport s here scanned same => ?_⟩
    obtain ⟨session,stored,shown⟩ := passport_session ledger here
    have apart : other ≠ id := by
      rintro rfl
      cases found.symm.trans here
      rw [unscanned] at scanned
      cases scanned
    have hashed : session.authorizationTokenHash = passport.scan.map fun scan => hash scan.authorizationToken :=
      congrArg HandoverSession.authorizationTokenHash shown
    rw [scanned,Option.map_some,same] at hashed
    exact unused (other,session) ((row_exact ledger.keyed).mpr stored) apart hashed
  have row := fun key => (congrArg (Table.row · key) (passports_snoc g.deeds (.scanned id scan))).trans (effect_scanned _ _ scan key)
  refine ⟨exclusive_release ledger.exclusive who,apply_keyed _ ledger.keyed,?_,fun key => ?_,history_snoc ledger.history allowed,?_,?_,
    ledger.ordersKeyed⟩
  · intro key session stored
    dsimp only at stored
    rw [Batches.update_row] at stored
    split at stored
    · obtain ⟨before,here,-⟩ := Option.map_eq_some_iff.mp stored
      exact ledger.below key before here
    · exact ledger.below key session stored
  · dsimp only
    rw [row key,Batches.update_row]
    split
    · rename_i same
      subst same
      obtain ⟨session,stored,shown⟩ := passport_session ledger found
      rw [found,stored]
      simp only [Option.map_some,Option.some_inj]
      have saved : undeleted (scan.save hash session) = scan.save hash (undeleted session) := rfl
      rw [saved,shown]
      rfl
    · exact ledger.refines key
  · intro closure member
    rcases mem_snoc member with before | same
    · exact ledger.authors closure before
    · cases same
  · intro key passport s here scanned
    dsimp only at here
    rw [row key] at here
    split at here
    · rename_i same
      subst same
      rw [found] at here
      cases here
      cases scanned
      exact ⟨past,presentedLater⟩
    · exact ledger.past key passport s here scanned

theorem closed_ledger {handover : Handover} {found : Table OrderRow} (known : who < count)
    (stands : Stands who g (.locking handover now session [] found)) (all : found.length = handover.orderIds.length) :
    Ledger hash count ((⟨who,handover,now,session,found⟩ : Closure).apply (g.release who)) := by
  obtain ⟨⟨authorized,-⟩,distinct,asked,locked⟩ := stands
  have ids : ∀ id,id ∈ found.map (·.1) ↔ id ∈ handover.orderIds := by
    intro id
    have inside : List.Subperm (found.map (·.1)) handover.orderIds := List.Nodup.subperm distinct asked
    exact (inside.perm_of_length_le (by simp [all])).mem_iff
  have allowed : Allowed (passports g.deeds) (.closed ⟨who,handover,now,session,found⟩) :=
    ⟨authorized,fun entry member => (locked entry member).2.2,ids⟩
  have row : ∀ key,(passports ((⟨who,handover,now,session,found⟩ : Closure).apply (g.release who)).deeds).row key =
      if session = some key then ((passports g.deeds).row key).map fun p => {p with closure:=some ⟨who,handover,now,session,found⟩}
      else (passports g.deeds).row key :=
    fun key => (congrArg (Table.row · key) (passports_snoc g.deeds (.closed ⟨who,handover,now,session,found⟩))).trans (effect_closed _ _ key)
  have sessions : ∀ key,(((⟨who,handover,now,session,found⟩ : Closure).apply (g.release who)).sessions).row key =
      if session = some key then (g.sessions.row key).map fun s => {s with consumedAt:=some now} else g.sessions.row key := by
    intro key
    cases session with
    | none => simp [Closure.apply,Desk.release]
    | some id => simp only [Closure.apply,Desk.release,Batches.update_row,Option.some_inj]
  refine ⟨exclusive_release ledger.exclusive who,?_,?_,fun key => ?_,history_snoc ledger.history allowed,?_,?_,
    handOver_keyed found ledger.ordersKeyed⟩
  · cases session with
    | none => exact ledger.keyed
    | some id => exact apply_keyed _ ledger.keyed
  · intro key stored here
    rw [sessions key] at here
    split at here
    · obtain ⟨before,there,-⟩ := Option.map_eq_some_iff.mp here
      exact ledger.below key before there
    · exact ledger.below key stored here
  · rw [sessions key,row key]
    split
    · have refined := ledger.refines key
      cases here : (passports g.deeds).row key with
      | none =>
        rw [here,Option.map_none,Option.map_eq_none_iff] at refined
        rw [refined]
        rfl
      | some passport =>
        obtain ⟨stored,there,shown⟩ := passport_session ledger here
        rw [there]
        simp only [Option.map_some,Option.some_inj]
        have used : undeleted {stored with consumedAt:=some now} = {undeleted stored with consumedAt:=some now} := rfl
        rw [used,shown]
        rfl
    · exact ledger.refines key
  · intro closure member
    rcases mem_snoc member with before | same
    · exact ledger.authors closure before
    · cases same
      exact known
  · intro key passport scan here scanned
    rw [row key] at here
    split at here
    · obtain ⟨before,stored,rfl⟩ := Option.map_eq_some_iff.mp here
      exact ledger.past key before scan stored scanned
    · exact ledger.past key passport scan here scanned

theorem change_ledger {clerk : Clerk} (known : who < count) (stands : Stands who g clerk) (change : Change hash who g clerk g' clerk') :
    Ledger hash count g' := by
  cases change with
  | quiet quiet unclosed => exact quiet_ledger ledger quiet
  | answered done => exact ledger
  | deleted replaced => exact deleted_ledger ledger who replaced
  | issued unused => exact issued_ledger ledger unused
  | scanned unused => exact scanned_ledger ledger stands unused
  | closed all => exact closed_ledger ledger known stands all

end Refines

end Elchi.Handovers
