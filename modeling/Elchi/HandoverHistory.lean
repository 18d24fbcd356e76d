import Mathlib.Data.List.Induction
import Elchi.HandoverSessions
import Elchi.DepotRows
namespace Elchi.Handovers
open RowLock hiding Machine Turn
open Batches (handoverReady)
variable {hash : String → String}

-- A session as what has happened to it.
structure Passport where
  ticket : QrTicket
  scan : Option Scan
  closure : Option Closure
def Passport.session (hash : String → String) (passport : Passport) : HandoverSession :=
  ⟨passport.ticket.marketId,hash passport.ticket.qrToken,passport.ticket.expiresAt,passport.scan.map (·.scannedAt),
    passport.scan.map (·.staff.requester.id),passport.scan.map fun scan => hash scan.authorizationToken,
    passport.scan.map (·.expiresAt),passport.closure.map (·.now),false⟩

def Deed.effect (table : Table Passport) : Deed → Table Passport
  | .issued session ticket => table.put session ⟨ticket,none,none⟩
  | .scanned session scan => (Write.update session fun passport => {passport with scan:=some scan}).apply table
  | .closed closure => match closure.session with
    | none => table
    | some session => (Write.update session fun passport => {passport with closure:=some closure}).apply table
def passports (deeds : List Deed) : Table Passport := deeds.foldl Deed.effect []

-- The session behind a handover: scanned by the one who hands over, still valid and not used yet.
structure Authorizes (handover : Handover) (now : Nat) (passport : Passport) (scan : Scan) : Prop where
  scanned : passport.scan = some scan
  unused : passport.closure = none
  market : passport.ticket.marketId = handover.marketId
  staff : scan.staff.requester.id = handover.staff.requester.id
  token : scan.authorizationToken = handover.authorizationToken
  after : scan.scannedAt ≤ now
  before : now < scan.expiresAt
def Authorized (table : Table Passport) (handover : Handover) (now : Nat) : Option Nat → Prop
  | none => handover.qrRequired = false
  | some session => handover.qrRequired = true ∧ ∃ passport scan,table.row session = some passport ∧ Authorizes handover now passport scan

-- When the protocol allows a deed.
def Allowed (table : Table Passport) : Deed → Prop
  | .issued session ticket => table.row session = none ∧
      ∀ other passport,table.row other = some passport → passport.ticket.qrToken ≠ ticket.qrToken
  | .scanned session scan =>
    (∃ passport,table.row session = some passport ∧ passport.scan = none ∧ passport.ticket.qrToken = scan.qrToken ∧
      scan.scannedAt < passport.ticket.expiresAt) ∧
    ∀ other passport s,table.row other = some passport → passport.scan = some s → s.authorizationToken ≠ scan.authorizationToken
  | .closed closure => Authorized table closure.handover closure.now closure.session ∧
      (∀ entry ∈ closure.orders,handoverReady closure.handover.marketId entry.2.order = true) ∧
      ∀ id,id ∈ closure.orders.map (·.1) ↔ id ∈ closure.handover.orderIds
def History (deeds : List Deed) : Prop := ∀ front deed,front ++ [deed] <+: deeds → Allowed (passports front) deed

-- What a committed deed rests on among the earlier ones.
def Backed (earlier : List Deed) : Deed → Prop
  | .issued session ticket => ∀ other t,.issued other t ∈ earlier → other ≠ session ∧ t.qrToken ≠ ticket.qrToken
  | .scanned session scan =>
    (∃ ticket,.issued session ticket ∈ earlier ∧ ticket.qrToken = scan.qrToken ∧ scan.scannedAt < ticket.expiresAt) ∧
    ∀ other s,.scanned other s ∈ earlier →
      other ≠ session ∧ s.qrToken ≠ scan.qrToken ∧ s.authorizationToken ≠ scan.authorizationToken
  | .closed closure =>
    (∀ entry ∈ closure.orders,handoverReady closure.handover.marketId entry.2.order = true) ∧
    (∀ id,id ∈ closure.orders.map (·.1) ↔ id ∈ closure.handover.orderIds) ∧
    (closure.handover.qrRequired = true → ∃ session ticket scan,
      closure.session = some session ∧ .issued session ticket ∈ earlier ∧ .scanned session scan ∈ earlier ∧
      ticket.marketId = closure.handover.marketId ∧ scan.staff.requester.id = closure.handover.staff.requester.id ∧
      scan.authorizationToken = closure.handover.authorizationToken ∧ scan.scannedAt ≤ closure.now ∧ closure.now < scan.expiresAt ∧
      ∀ other,.closed other ∈ earlier → other.handover.qrRequired = true →
        other.session ≠ some session ∧ other.handover.authorizationToken ≠ closure.handover.authorizationToken)


theorem passports_snoc (deeds : List Deed) (deed : Deed) : passports (deeds ++ [deed]) = deed.effect (passports deeds) := by
  simp [passports]
theorem history_nil : History [] := fun front deed reached => by simp at reached
theorem history_snoc {deeds : List Deed} (history : History deeds) (allowed : Allowed (passports deeds) deed) : History (deeds ++ [deed]) := by
  intro front last reached
  rcases List.prefix_concat_iff.mp reached with same | earlier
  · obtain ⟨rfl,rfl⟩ := List.append_inj' same rfl |>.imp_right List.singleton_inj.mp
    exact allowed
  · exact history front last earlier
theorem history_front {deeds front : List Deed} (history : History deeds) (reached : front <+: deeds) : History front :=
  fun earlier deed inside => history earlier deed (inside.trans reached)

theorem effect_issued (table : Table Passport) (session : Nat) (ticket : QrTicket) (id : Nat) :
    (Deed.effect table (.issued session ticket)).row id = if session = id then some ⟨ticket,none,none⟩ else table.row id :=
  row_put table session id _
theorem effect_scanned (table : Table Passport) (session : Nat) (scan : Scan) (id : Nat) :
    (Deed.effect table (.scanned session scan)).row id =
      if session = id then (table.row id).map fun passport => {passport with scan:=some scan} else table.row id :=
  Batches.update_row session _ table id
theorem effect_closed (table : Table Passport) (closure : Closure) (id : Nat) :
    (Deed.effect table (.closed closure)).row id =
      if closure.session = some id then (table.row id).map fun passport => {passport with closure:=some closure} else table.row id := by
  cases chosen : closure.session with
  | none => simp [Deed.effect,chosen]
  | some session =>
    simp only [Deed.effect,chosen,Batches.update_row,Option.some_inj]

-- What the protocol has allowed and what the passports show are the same events, and a token is
-- of one session.
structure Matches (deeds : List Deed) : Prop where
  issued : ∀ session passport,(passports deeds).row session = some passport → .issued session passport.ticket ∈ deeds
  scanned : ∀ session passport scan,(passports deeds).row session = some passport → passport.scan = some scan →
    .scanned session scan ∈ deeds
  closed : ∀ session passport closure,(passports deeds).row session = some passport → passport.closure = some closure →
    .closed closure ∈ deeds ∧ closure.session = some session
  hasIssued : ∀ session ticket,.issued session ticket ∈ deeds → ∃ passport,
    (passports deeds).row session = some passport ∧ passport.ticket = ticket
  hasScanned : ∀ session scan,.scanned session scan ∈ deeds → ∃ passport,
    (passports deeds).row session = some passport ∧ passport.scan = some scan ∧ passport.ticket.qrToken = scan.qrToken
  hasClosed : ∀ closure,.closed closure ∈ deeds → closure.handover.qrRequired = true → ∃ session passport scan,
    closure.session = some session ∧ (passports deeds).row session = some passport ∧ passport.closure = some closure ∧
    passport.scan = some scan ∧ scan.authorizationToken = closure.handover.authorizationToken
  scannedFirst : ∀ session passport,(passports deeds).row session = some passport → passport.scan = none → passport.closure = none
  qrOnce : ∀ a b left right,(passports deeds).row a = some left → (passports deeds).row b = some right →
    left.ticket.qrToken = right.ticket.qrToken → a = b
  authorizationOnce : ∀ a b left right s t,(passports deeds).row a = some left → (passports deeds).row b = some right →
    left.scan = some s → right.scan = some t → s.authorizationToken = t.authorizationToken → a = b

section Deeds
variable {deeds : List Deed} (matched : Matches deeds)

theorem mem_snoc {deed last : Deed} (member : deed ∈ deeds ++ [last]) : deed ∈ deeds ∨ deed = last := by simpa using member

include matched
theorem matches_issued {ticket : QrTicket} (allowed : Allowed (passports deeds) (.issued session ticket)) :
    Matches (deeds ++ [.issued session ticket]) := by
  obtain ⟨free,unused⟩ := allowed
  have row := fun id => (congrArg (Table.row · id) (passports_snoc deeds (.issued session ticket))).trans (effect_issued _ session ticket id)
  have here := (row session).trans (if_pos rfl)
  have there : ∀ {id},session ≠ id → (passports (deeds ++ [.issued session ticket])).row id = (passports deeds).row id :=
    fun apart => (row _).trans (if_neg apart)
  -- The new passport is nobody's, so every passport of before is still there.
  have stays : ∀ id passport,(passports deeds).row id = some passport →
      (passports (deeds ++ [.issued session ticket])).row id = some passport := by
    intro id passport stored
    have apart : session ≠ id := fun same => by rw [←same,free] at stored; cases stored
    exact (there apart).trans stored
  have either : ∀ id passport,(passports (deeds ++ [.issued session ticket])).row id = some passport →
      id = session ∧ passport = ⟨ticket,none,none⟩ ∨ (passports deeds).row id = some passport := by
    intro id passport stored
    by_cases same : session = id
    · subst same
      exact .inl ⟨rfl,Option.some_inj.mp (stored.symm.trans here)⟩
    · exact .inr ((there same).symm.trans stored)
  constructor
  · intro id passport stored
    rcases either id passport stored with ⟨rfl,rfl⟩ | before
    · exact List.mem_append_right _ List.mem_cons_self
    · exact List.mem_append_left _ (matched.issued id passport before)
  · intro id passport scan stored scanned
    rcases either id passport stored with ⟨rfl,rfl⟩ | before
    · cases scanned
    · exact List.mem_append_left _ (matched.scanned id passport scan before scanned)
  · intro id passport closure stored closed
    rcases either id passport stored with ⟨rfl,rfl⟩ | before
    · cases closed
    · have ⟨member,its⟩ := matched.closed id passport closure before closed
      exact ⟨List.mem_append_left _ member,its⟩
  · intro id other member
    rcases mem_snoc member with before | same
    · obtain ⟨passport,stored,its⟩ := matched.hasIssued id other before
      exact ⟨passport,stays id passport stored,its⟩
    · cases same
      exact ⟨_,here,rfl⟩
  · intro id scan member
    rcases mem_snoc member with before | same
    · obtain ⟨passport,stored,its⟩ := matched.hasScanned id scan before
      exact ⟨passport,stays id passport stored,its⟩
    · cases same
  · intro closure member required
    rcases mem_snoc member with before | same
    · obtain ⟨id,passport,scan,its,stored,rest⟩ := matched.hasClosed closure before required
      exact ⟨id,passport,scan,its,stays id passport stored,rest⟩
    · cases same
  · intro id passport stored unscanned
    rcases either id passport stored with ⟨rfl,rfl⟩ | before
    · rfl
    · exact matched.scannedFirst id passport before unscanned
  · intro a b left right atA atB same
    rcases either a left atA with ⟨rfl,rfl⟩ | oldA
    · rcases either b right atB with ⟨rfl,-⟩ | oldB
      · rfl
      · exact absurd same.symm (unused b right oldB)
    · rcases either b right atB with ⟨rfl,rfl⟩ | oldB
      · exact absurd same (unused a left oldA)
      · exact matched.qrOnce a b left right oldA oldB same
  · intro a b left right s t atA atB scannedA scannedB same
    rcases either a left atA with ⟨rfl,rfl⟩ | oldA
    · cases scannedA
    · rcases either b right atB with ⟨rfl,rfl⟩ | oldB
      · cases scannedB
      · exact matched.authorizationOnce a b left right s t oldA oldB scannedA scannedB same

theorem matches_scanned {scan : Scan} (allowed : Allowed (passports deeds) (.scanned session scan)) :
    Matches (deeds ++ [.scanned session scan]) := by
  obtain ⟨⟨target,found,unscanned,token,-⟩,unused⟩ := allowed
  have unclosed := matched.scannedFirst session target found unscanned
  have row := fun id => (congrArg (Table.row · id) (passports_snoc deeds (.scanned session scan))).trans (effect_scanned _ session scan id)
  have here := (row session).trans (if_pos rfl)
  rw [found,Option.map_some] at here
  have there : ∀ {id},session ≠ id → (passports (deeds ++ [.scanned session scan])).row id = (passports deeds).row id :=
    fun apart => (row _).trans (if_neg apart)
  have either : ∀ id passport,(passports (deeds ++ [.scanned session scan])).row id = some passport →
      id = session ∧ passport = {target with scan:=some scan} ∨ session ≠ id ∧ (passports deeds).row id = some passport := by
    intro id passport stored
    by_cases same : session = id
    · subst same
      exact .inl ⟨rfl,Option.some_inj.mp (stored.symm.trans here)⟩
    · exact .inr ⟨same,(there same).symm.trans stored⟩
  constructor
  · intro id passport stored
    rcases either id passport stored with ⟨rfl,rfl⟩ | ⟨-,before⟩
    · exact List.mem_append_left _ (matched.issued _ target found)
    · exact List.mem_append_left _ (matched.issued id passport before)
  · intro id passport other stored scanned
    rcases either id passport stored with ⟨rfl,rfl⟩ | ⟨-,before⟩
    · cases scanned
      exact List.mem_append_right _ List.mem_cons_self
    · exact List.mem_append_left _ (matched.scanned id passport other before scanned)
  · intro id passport closure stored closed
    rcases either id passport stored with ⟨rfl,rfl⟩ | ⟨-,before⟩
    · cases unclosed.symm.trans closed
    · have ⟨member,its⟩ := matched.closed id passport closure before closed
      exact ⟨List.mem_append_left _ member,its⟩
  · intro id ticket member
    rcases mem_snoc member with before | same
    · obtain ⟨passport,stored,its⟩ := matched.hasIssued id ticket before
      by_cases same : session = id
      · subst same
        cases found.symm.trans stored
        exact ⟨_,here,its⟩
      · exact ⟨passport,(there same).trans stored,its⟩
    · cases same
  · intro id other member
    rcases mem_snoc member with before | same
    · obtain ⟨passport,stored,scanned,its⟩ := matched.hasScanned id other before
      have apart : session ≠ id := by
        rintro rfl
        cases found.symm.trans stored
        rw [unscanned] at scanned
        cases scanned
      exact ⟨passport,(there apart).trans stored,scanned,its⟩
    · cases same
      exact ⟨_,here,rfl,token⟩
  · intro closure member required
    rcases mem_snoc member with before | same
    · obtain ⟨id,passport,other,its,stored,closed,rest⟩ := matched.hasClosed closure before required
      have apart : session ≠ id := by
        rintro rfl
        cases found.symm.trans stored
        rw [unclosed] at closed
        cases closed
      exact ⟨id,passport,other,its,(there apart).trans stored,closed,rest⟩
    · cases same
  · intro id passport stored fresh
    rcases either id passport stored with ⟨rfl,rfl⟩ | ⟨-,before⟩
    · cases fresh
    · exact matched.scannedFirst id passport before fresh
  · intro a b left right atA atB same
    rcases either a left atA with ⟨rfl,rfl⟩ | ⟨-,oldA⟩
    · rcases either b right atB with ⟨rfl,-⟩ | ⟨-,oldB⟩
      · rfl
      · exact matched.qrOnce _ b target right found oldB same
    · rcases either b right atB with ⟨rfl,rfl⟩ | ⟨-,oldB⟩
      · exact matched.qrOnce a _ left target oldA found same
      · exact matched.qrOnce a b left right oldA oldB same
  · intro a b left right s t atA atB scannedA scannedB same
    rcases either a left atA with ⟨rfl,rfl⟩ | ⟨-,oldA⟩
    · cases scannedA
      rcases either b right atB with ⟨rfl,-⟩ | ⟨-,oldB⟩
      · rfl
      · exact absurd same.symm (unused b right t oldB scannedB)
    · rcases either b right atB with ⟨rfl,rfl⟩ | ⟨-,oldB⟩
      · cases scannedB
        exact absurd same (unused a left s oldA scannedA)
      · exact matched.authorizationOnce a b left right s t oldA oldB scannedA scannedB same

theorem matches_closed {closure : Closure} (allowed : Allowed (passports deeds) (.closed closure)) : Matches (deeds ++ [.closed closure]) := by
  obtain ⟨authorized,-⟩ := allowed
  have row := fun id => (congrArg (Table.row · id) (passports_snoc deeds (.closed closure))).trans (effect_closed _ closure id)
  have there : ∀ {id},closure.session ≠ some id → (passports (deeds ++ [.closed closure])).row id = (passports deeds).row id :=
    fun apart => (row _).trans (if_neg apart)
  -- Ticket and scan of a passport stay as they are.
  have used : ∀ id passport,(passports (deeds ++ [.closed closure])).row id = some passport → ∃ before,
      (passports deeds).row id = some before ∧ passport.ticket = before.ticket ∧ passport.scan = before.scan ∧
      (passport.closure = before.closure ∨ closure.session = some id ∧ passport.closure = some closure) := by
    intro id passport stored
    by_cases same : closure.session = some id
    · have here := (row id).trans (if_pos same)
      rw [stored] at here
      obtain ⟨before,found,rfl⟩ := Option.map_eq_some_iff.mp here.symm
      exact ⟨before,found,rfl,rfl,.inr ⟨same,rfl⟩⟩
    · exact ⟨passport,(there same).symm.trans stored,rfl,rfl,.inl rfl⟩
  have stays : ∀ id passport,(passports deeds).row id = some passport → ∃ after,
      (passports (deeds ++ [.closed closure])).row id = some after ∧ after.ticket = passport.ticket ∧ after.scan = passport.scan := by
    intro id passport stored
    by_cases same : closure.session = some id
    · exact ⟨{passport with closure:=some closure},by rw [row id,if_pos same,stored]; rfl,rfl,rfl⟩
    · exact ⟨passport,(there same).trans stored,rfl,rfl⟩
  constructor
  · intro id passport stored
    obtain ⟨before,found,ticket,-⟩ := used id passport stored
    rw [ticket]
    exact List.mem_append_left _ (matched.issued id before found)
  · intro id passport scan stored scanned
    obtain ⟨before,found,-,same,-⟩ := used id passport stored
    exact List.mem_append_left _ (matched.scanned id before scan found (same.symm.trans scanned))
  · intro id passport other stored closed
    obtain ⟨before,found,-,-,same | ⟨its,same⟩⟩ := used id passport stored
    · have ⟨member,named⟩ := matched.closed id before other found (same.symm.trans closed)
      exact ⟨List.mem_append_left _ member,named⟩
    · cases closed.symm.trans same
      exact ⟨List.mem_append_right _ List.mem_cons_self,its⟩
  · intro id ticket member
    rcases mem_snoc member with before | same
    · obtain ⟨passport,stored,its⟩ := matched.hasIssued id ticket before
      obtain ⟨after,found,same,-⟩ := stays id passport stored
      exact ⟨after,found,same.trans its⟩
    · cases same
  · intro id scan member
    rcases mem_snoc member with before | same
    · obtain ⟨passport,stored,scanned,its⟩ := matched.hasScanned id scan before
      obtain ⟨after,found,ticket,same⟩ := stays id passport stored
      exact ⟨after,found,same.trans scanned,(congrArg QrTicket.qrToken ticket).trans its⟩
    · cases same
  · intro other member required
    rcases mem_snoc member with before | same
    · obtain ⟨id,passport,scan,its,stored,closed,scanned,token⟩ := matched.hasClosed other before required
      have apart : closure.session ≠ some id := by
        intro same
        rw [same] at authorized
        obtain ⟨-,again,_,found,authorizes⟩ := authorized
        cases stored.symm.trans found
        rw [authorizes.unused] at closed
        cases closed
      exact ⟨id,passport,scan,its,(there apart).trans stored,closed,scanned,token⟩
    · cases same
      cases chosen : closure.session with
      | none =>
        rw [chosen] at authorized
        have optional : closure.handover.qrRequired = false := authorized
        rw [optional] at required
        cases required
      | some session =>
        rw [chosen] at authorized
        obtain ⟨-,passport,scan,found,authorizes⟩ := authorized
        exact ⟨session,{passport with closure:=some closure},scan,rfl,by rw [row session,if_pos chosen,found]; rfl,rfl,
          authorizes.scanned,authorizes.token⟩
  · intro id passport stored unscanned
    obtain ⟨before,found,-,same,-⟩ := used id passport stored
    have apart : closure.session ≠ some id := by
      intro chosen
      rw [chosen] at authorized
      obtain ⟨-,_,_,again,authorizes⟩ := authorized
      cases found.symm.trans again
      cases unscanned.symm.trans (same.trans authorizes.scanned)
    exact matched.scannedFirst id passport ((there apart).symm.trans stored) unscanned
  · intro a b left right atA atB same
    obtain ⟨oldA,foundA,ticketA,-⟩ := used a left atA
    obtain ⟨oldB,foundB,ticketB,-⟩ := used b right atB
    exact matched.qrOnce a b oldA oldB foundA foundB (by rw [←ticketA,←ticketB,same])
  · intro a b left right s t atA atB scannedA scannedB same
    obtain ⟨oldA,foundA,-,sameA,-⟩ := used a left atA
    obtain ⟨oldB,foundB,-,sameB,-⟩ := used b right atB
    exact matched.authorizationOnce a b oldA oldB s t foundA foundB (sameA.symm.trans scannedA) (sameB.symm.trans scannedB) same

-- So every deed rests on the ones before it.
theorem allowed_backed (allowed : Allowed (passports deeds) deed) : Backed deeds deed := by
  cases deed with
  | issued session ticket =>
    obtain ⟨free,unused⟩ := allowed
    intro other t member
    obtain ⟨passport,here,rfl⟩ := matched.hasIssued other t member
    refine ⟨?_,unused other passport here⟩
    rintro rfl
    rw [free] at here
    cases here
  | scanned session scan =>
    obtain ⟨⟨passport,here,unscanned,token,inTime⟩,unused⟩ := allowed
    refine ⟨⟨passport.ticket,matched.issued session passport here,token,inTime⟩,?_⟩
    intro other s member
    obtain ⟨earlier,there,scanned,its⟩ := matched.hasScanned other s member
    have apart : other ≠ session := by
      rintro rfl
      cases here.symm.trans there
      rw [unscanned] at scanned
      cases scanned
    refine ⟨apart,fun same => apart ?_,unused other earlier s there scanned⟩
    exact matched.qrOnce other session earlier passport there here (its.trans (same.trans token.symm))
  | closed closure =>
    obtain ⟨authorized,ready,ids⟩ := allowed
    refine ⟨ready,ids,fun required => ?_⟩
    cases chosen : closure.session with
    | none =>
      rw [chosen] at authorized
      have optional : closure.handover.qrRequired = false := authorized
      rw [optional] at required
      cases required
    | some session =>
      rw [chosen] at authorized
      obtain ⟨-,passport,scan,here,authorizes⟩ := authorized
      refine ⟨session,passport.ticket,scan,rfl,matched.issued session passport here,
        matched.scanned session passport scan here authorizes.scanned,authorizes.market,authorizes.staff,authorizes.token,
        authorizes.after,authorizes.before,fun other member otherRequired => ?_⟩
      obtain ⟨id,used,s,its,there,closed,scanned,token⟩ := matched.hasClosed other member otherRequired
      have apart : id ≠ session := by
        rintro rfl
        cases here.symm.trans there
        rw [authorizes.unused] at closed
        cases closed
      refine ⟨fun same => apart (Option.some_inj.mp (its.symm.trans same)),fun same => apart ?_⟩
      exact matched.authorizationOnce id session used passport s scan there here scanned authorizes.scanned
        (token.trans (same.trans authorizes.token.symm))

end Deeds

theorem history_matches {deeds : List Deed} (history : History deeds) : Matches deeds := by
  induction deeds using List.reverseRecOn with
  | nil =>
    constructor
    · exact fun _ _ here => nomatch here
    · exact fun _ _ _ here => nomatch here
    · exact fun _ _ _ here => nomatch here
    · exact fun _ _ member => nomatch member
    · exact fun _ _ member => nomatch member
    · exact fun _ member => nomatch member
    · exact fun _ _ here => nomatch here
    · exact fun _ _ _ _ here => nomatch here
    · exact fun _ _ _ _ _ _ here => nomatch here
  | append_singleton front deed ih =>
    have matched := ih (history_front history (List.prefix_append _ _))
    have allowed := history front deed List.prefix_rfl
    cases deed with
    | issued session ticket => exact matches_issued matched allowed
    | scanned session scan => exact matches_scanned matched allowed
    | closed closure => exact matches_closed matched allowed
theorem history_backed {deeds front : List Deed} (history : History deeds) (reached : front ++ [deed] <+: deeds) : Backed front deed :=
  allowed_backed (history_matches (history_front history ((List.prefix_append _ _).trans reached))) (history front deed reached)

end Elchi.Handovers
