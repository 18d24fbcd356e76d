import Elchi.HandoverSafety
namespace Elchi.Handovers
open RowLock hiding Machine Turn
open Interleaving Orders Batches
variable {hash : String → String}

theorem scanRefusal_none (passed : scanRefusal session now = none) :
    now < session.qrExpiresAt ∧ session.scannedAt = none ∧ session.authorizationTokenHash = none := by
  unfold scanRefusal at passed
  split at passed
  · cases passed
  · split at passed
    · cases passed
    · rename_i inTime unused
      simp only [Bool.or_eq_true,Option.isSome_iff_ne_none,not_or,not_not] at unused
      exact ⟨by omega,unused⟩
theorem handoverRefusal_none {handover : Handover} (passed : handoverRefusal session handover now = none) :
    session.marketId = handover.marketId ∧ session.scannedByUserId = some handover.staff.requester.id ∧ session.consumedAt = none ∧
      ∃ expiresAt,session.authorizationExpiresAt = some expiresAt ∧ now < expiresAt := by
  unfold handoverRefusal at passed
  split at passed
  · cases passed
  rename_i expiresAt expires
  split at passed
  · cases passed
  rename_i market
  split at passed
  · cases passed
  rename_i staff
  split at passed
  · cases passed
  rename_i consumed
  split at passed
  · cases passed
  rename_i inTime
  exact ⟨not_not.mp market,not_not.mp staff,by simpa using consumed,expiresAt,expires,by omega⟩

section Spares
variable {count : Nat} {g g' : Desk} {clerk clerk' : Clerk} (ledger : Ledger hash count g) (stands : Stands who g clerk)
  (change : Change hash who g clerk g' clerk') (apart : other ≠ who)

-- Whatever another request has locked stays locked and as it was.
theorem change_locks (change : Change hash who g clerk g' clerk') (apart : other ≠ who) (held : (row,other) ∈ g.locks) : (row,other) ∈ g'.locks := by
  cases change with
  | quiet quiet unclosed => exact quiet.held row other apart held
  | answered done => exact held
  | deleted replaced => exact release_other held apart
  | issued unused => exact held
  | scanned unused => exact release_other held apart
  | closed all => exact release_other held apart

include ledger stands change apart in
theorem change_passport {id : Nat} (held : (LockedRow.session id,other) ∈ g.locks) (here : (passports g.deeds).row id = some passport) :
    (passports g'.deeds).row id = some passport := by
  cases change with
  | quiet quiet unclosed => rw [quiet.deeds,here]
  | answered done => exact here
  | deleted replaced => exact here
  | issued unused =>
    obtain ⟨session,stored,-⟩ := passport_session ledger here
    have below := ledger.below id session stored
    rw [passports_snoc,effect_issued,if_neg (by omega),here]
  | @scanned scan key unused =>
    have different : key ≠ id := by
      rintro rfl
      exact apart (ledger.exclusive _ _ _ held stands.1)
    rw [passports_snoc,effect_scanned,if_neg different,here]
  | @closed now session found handover all =>
    have different : session ≠ some id := fun same => apart (ledger.exclusive _ _ _ held (stands.1.2 id same))
    have kept := effect_closed (passports g.deeds) ⟨who,handover,now,session,found⟩ id
    rw [if_neg different,here] at kept
    exact (congrArg (Table.row · id) (passports_snoc g.deeds _)).trans kept

include ledger stands change apart in
theorem change_order {id : Nat} (held : (LockedRow.order id,other) ∈ g.locks) : g'.depot.orders.row id = g.depot.orders.row id := by
  cases change with
  | quiet quiet unclosed => rw [quiet.depot]
  | answered done => rfl
  | deleted replaced => rfl
  | issued unused => rfl
  | scanned unused => rfl
  | closed all =>
    apply handOver_spares
    intro member
    obtain ⟨entry,listed,rfl⟩ := List.mem_map.mp member
    exact apart (ledger.exclusive _ _ _ held (stands.2.locked entry listed).1)

theorem change_presented (change : Change hash who g clerk g' clerk') : g'.now = g.now ∧
    (∀ entry ∈ g'.presented,entry ∈ g.presented ∨ entry.2 = g.now) ∧ ∀ entry ∈ g.presented,entry ∈ g'.presented := by
  have same : ∀ entry ∈ g.presented,entry ∈ g.presented ∨ entry.2 = g.now := fun _ member => .inl member
  cases change with
  | quiet quiet unclosed => exact ⟨quiet.now,quiet.presented,quiet.kept⟩
  | answered done => exact ⟨rfl,same,fun _ member => member⟩
  | deleted replaced => exact ⟨rfl,same,fun _ member => member⟩
  | issued unused => exact ⟨rfl,same,fun _ member => member⟩
  | scanned unused => exact ⟨rfl,same,fun _ member => member⟩
  | closed all => exact ⟨rfl,same,fun _ member => member⟩

-- Only a handover that is being answered as closed is recorded as closed, by its own request.
theorem change_closed {closure : Closure} (change : Change hash who g clerk g' clerk') (member : .closed closure ∈ g'.deeds) :
    .closed closure ∈ g.deeds ∨ closure.who = who ∧ clerk' = .closed closure := by
  cases change with
  | quiet quiet unclosed => exact .inl (quiet.deeds ▸ member)
  | answered done => exact .inl member
  | deleted replaced => exact .inl member
  | issued unused => exact .inl ((mem_snoc member).resolve_right nofun)
  | scanned unused => exact .inl ((mem_snoc member).resolve_right nofun)
  | closed all =>
    rcases mem_snoc member with before | same
    · exact .inl before
    · cases same
      exact .inr ⟨rfl,rfl⟩

include ledger stands change apart in
theorem change_secured {handover : Handover} (secured : Secured other g handover now session) : Secured other g' handover now session := by
  obtain ⟨authorized,held⟩ := secured
  refine ⟨?_,fun id same => change_locks change apart (held id same)⟩
  cases session with
  | none => exact authorized
  | some id =>
    obtain ⟨required,passport,scan,here,authorizes⟩ := authorized
    exact ⟨required,passport,scan,change_passport ledger stands change apart (held id rfl) here,authorizes⟩
include ledger stands change apart in
theorem change_stands {idle : Clerk} (relies : Stands other g idle) : Stands other g' idle := by
  obtain ⟨now,presented,kept⟩ := change_presented change
  cases idle with
  | saving id scan =>
    obtain ⟨held,⟨passport,here,rest⟩,past,later⟩ := relies
    refine ⟨change_locks change apart held,⟨passport,change_passport ledger stands change apart held here,rest⟩,now ▸ past,?_⟩
    intro time member
    rcases presented _ member with old | new
    · exact later time old
    · have presentedNow : time = g.now := new
      omega
  | admitting handover now => exact kept _ relies
  | selecting handover now session => exact change_secured ledger stands change apart relies
  | locking handover now session pending found =>
    obtain ⟨secured,distinct,asked,locked⟩ := relies
    refine ⟨change_secured ledger stands change apart secured,distinct,asked,fun entry member => ?_⟩
    obtain ⟨held,stored,ready⟩ := locked entry member
    exact ⟨change_locks change apart held,(change_order ledger stands change apart held).trans stored,ready⟩
  | _ => trivial

end Spares

section Own
variable {count : Nat} {g : Desk} (injective : Function.Injective hash) (ledger : Ledger hash count g)
include injective ledger

theorem seekQr_stands (unguessed : ∀ time,(generateHandoverToken "MHA" random,time) ∉ g.presented) :
    Stands who (seekQr hash who g qrToken staff random).1 (seekQr hash who g qrToken staff random).2 := by
  unfold seekQr
  split
  · trivial
  rename_i id session rest found
  obtain ⟨stored,chosen⟩ := select_row ledger.keyed (found ▸ List.mem_cons_self)
  split
  · split
    · trivial
    · rename_i passed
      obtain ⟨inTime,unscanned,-⟩ := scanRefusal_none passed
      obtain ⟨passport,here,shown⟩ := session_passport ledger stored
      have hashed : session.qrTokenHash = hash passport.ticket.qrToken := congrArg HandoverSession.qrTokenHash shown
      have expires : session.qrExpiresAt = passport.ticket.expiresAt := congrArg HandoverSession.qrExpiresAt shown
      have scanned : session.scannedAt = passport.scan.map (·.scannedAt) := congrArg HandoverSession.scannedAt shown
      simp only [Bool.and_eq_true,beq_iff_eq] at chosen
      refine ⟨List.mem_cons_self,⟨passport,here,?_,injective (hashed.symm.trans chosen.1),expires ▸ inTime⟩,Nat.le_refl _,?_⟩
      · exact Option.map_eq_none_iff.mp (scanned.symm.trans unscanned)
      · exact fun time member => absurd member (unguessed time)
  · trivial

theorem admitHandover_stands {handover : Handover} (presented : (handover.authorizationToken,now) ∈ g.presented) :
    Stands who (admitHandover hash who g handover now).1 (admitHandover hash who g handover now).2 := by
  unfold admitHandover
  split
  · rename_i optional
    have free : handover.qrRequired = false := by simpa using optional
    exact ⟨free,fun id same => by cases same⟩
  rename_i required
  split
  · trivial
  rename_i id session rest found
  obtain ⟨stored,chosen⟩ := select_row ledger.keyed (found ▸ List.mem_cons_self)
  split
  · split
    · trivial
    · rename_i passed
      obtain ⟨market,staff,consumed,expiresAt,expires,inTime⟩ := handoverRefusal_none passed
      obtain ⟨passport,here,shown⟩ := session_passport ledger stored
      simp only [Bool.and_eq_true,beq_iff_eq] at chosen
      have hashed := (congrArg HandoverSession.authorizationTokenHash shown).symm.trans chosen.1
      obtain ⟨scan,scanned,same⟩ := Option.map_eq_some_iff.mp hashed
      have token := injective same
      have sameMarket : session.marketId = passport.ticket.marketId := congrArg HandoverSession.marketId shown
      have sameStaff := (congrArg HandoverSession.scannedByUserId shown).symm.trans staff
      have sameExpiry := (congrArg HandoverSession.authorizationExpiresAt shown).symm.trans expires
      have sameConsumed := (congrArg HandoverSession.consumedAt shown).symm.trans consumed
      simp only [Passport.session,scanned,Option.map_some,Option.some_inj] at sameStaff sameExpiry
      have after := (ledger.past id passport scan here scanned).2 now (token ▸ presented)
      refine ⟨⟨by simpa using required,passport,scan,here,?_⟩,fun key same => ?_⟩
      · exact ⟨scanned,Option.map_eq_none_iff.mp sameConsumed,sameMarket.symm.trans market,sameStaff,token,after,sameExpiry ▸ inTime⟩
      · cases same
        exact List.mem_cons_self
  · exact presented

omit injective ledger in
theorem lockOrders_stands {handover : Handover} {found : Table OrderRow} (secured : Secured who g handover now session)
    (holds : Found who g handover pending found) :
    Stands who (lockOrders who g handover now session found pending).1 (lockOrders who g handover now session found pending).2 := by
  cases pending with
  | nil =>
    simp only [lockOrders]
    split
    · trivial
    · trivial
  | cons id pending =>
    simp only [lockOrders]
    split
    · obtain ⟨distinct,asked,locked⟩ := holds
      have still : ∀ entry ∈ found,(LockedRow.order entry.1,who) ∈ (g.lock who (.order id)).locks ∧
          (g.lock who (.order id)).depot.orders.row entry.1 = some entry.2 ∧ handoverReady handover.marketId entry.2.order = true :=
        fun entry member => ⟨.tail _ (locked entry member).1,(locked entry member).2⟩
      have dropped : Found who (g.lock who (.order id)) handover pending found :=
        ⟨(List.nodup_cons.mp distinct).2,fun other member => asked other (.tail _ member),still⟩
      refine ⟨⟨secured.1,fun key same => .tail _ (secured.2 key same)⟩,?_⟩
      split
      · rename_i row stored
        split
        · rename_i ready
          have order : List.Perm (pending ++ (found ++ [(id,row)]).map (·.1)) (id :: (pending ++ found.map (·.1))) := by
            simp only [List.map_append,List.map_cons,List.map_nil,←List.append_assoc]
            exact List.perm_append_singleton _ _
          refine ⟨order.nodup_iff.mpr distinct,fun other member => asked other (order.mem_iff.mp member),fun entry member => ?_⟩
          rcases List.mem_append.mp member with old | new
          · exact still entry old
          · cases List.mem_singleton.mp new
            exact ⟨List.mem_cons_self,stored,ready⟩
        · exact dropped
      · exact dropped
    · exact ⟨secured,holds⟩

theorem next_stands (stands : Stands who g clerk)
    (unguessed : ∀ random,fate = .goes random → ∀ token,clerk.draws random = some token → ∀ time,(token,time) ∉ g.presented) :
    Stands who (nextStatement hash who fate g clerk).1 (nextStatement hash who fate g clerk).2 := by
  unfold nextStatement
  split
  · exact stands
  cases fate with
  | fails error => trivial
  | dies => trivial
  | goes random =>
    cases clerk with
    | creating input => simp only [Clerk.go]; split <;> trivial
    | replacing ticket => trivial
    | deleting ticket pending replaced =>
      cases pending with
      | nil => trivial
      | cons id pending => simp only [Clerk.go,replaceSessions]; split <;> trivial
    | inserting ticket => simp only [Clerk.go,insertSession]; split <;> trivial
    | scanning input => simp only [Clerk.go]; split <;> trivial
    | seeking qrToken staff => exact seekQr_stands injective ledger (unguessed random rfl _ rfl)
    | saving id scan => simp only [Clerk.go,saveScan]; split <;> trivial
    | completing input =>
      simp only [Clerk.go]
      split
      · trivial
      · exact List.mem_cons_self
    | admitting handover now => exact admitHandover_stands injective ledger stands
    | selecting handover now session =>
      refine ⟨stands,?_,fun id member => ?_,fun entry member => absurd member List.not_mem_nil⟩
      · rw [List.map_nil,List.append_nil]
        exact select_keyed ledger.ordersKeyed _
      · rw [List.map_nil,List.append_nil] at member
        obtain ⟨entry,listed,rfl⟩ := List.mem_map.mp member
        have chosen := (select_row ledger.ordersKeyed listed).2
        simp only [Bool.and_eq_true,List.contains_iff_mem] at chosen
        exact chosen.1
    | locking handover now session pending found => exact lockOrders_stands stands.1 stands.2
    | issued _ | authorized _ | closed _ | refused _ | dead => trivial

end Own

theorem open_ledger {now : Nat} {depot : Depot} (keyed : depot.orders.Keyed) : Ledger hash 0 (Desk.open now depot) := by
  refine ⟨fun row a b held => (nomatch held),List.nodup_nil,?_,fun id => rfl,history_nil,fun closure member => (nomatch member),?_,keyed⟩
  · exact fun id session stored => nomatch stored
  · exact fun id passport scan here => nomatch here

theorem handover_keeps (injective : Function.Injective hash) : (handoverDesk hash).Keeps Unguessed (Ledger hash) At := by
  constructor
  · intro m request holds met
    obtain ⟨ledger,-⟩ := holds
    refine ⟨{ledger with authors:=fun closure member => Nat.lt_succ_of_lt (ledger.authors closure member)},?_,?_⟩
    · intro closure member same
      exact absurd (ledger.authors closure member) (by omega)
    · cases request with
      | createQr _ | scanQr _ | complete _ => trivial
  · intro m who fate clerk ⟨ledger,each⟩ met here
    have ⟨closes,stands⟩ := each who clerk here
    have known : who < m.workers.length := (List.getElem?_eq_some_iff.mp here).1
    have change := next_change hash who fate m.shared clerk
    refine ⟨change_ledger ledger known stands change,fun closure member same => ?_,?_⟩
    · rcases change_closed change member with before | ⟨-,now⟩
      · have done := closes closure before same
        subst done
        rfl
      · exact now
    · apply next_stands injective ledger stands
      rintro random rfl token drawn time member
      exact met token (by rw [here]; exact drawn) (token,time) member rfl
  · intro m who fate clerk other idle ⟨ledger,each⟩ met here apart there
    obtain ⟨-,stands⟩ := each who clerk here
    obtain ⟨closes,relies⟩ := each other idle there
    have change := next_change hash who fate m.shared clerk
    refine ⟨fun closure member same => ?_,change_stands ledger stands change apart relies⟩
    rcases change_closed change member with before | ⟨its,-⟩
    · exact closes closure before same
    · exact absurd (same.symm.trans its) apart
  · intro m ms ⟨ledger,each⟩ met
    refine ⟨{ledger with past:=fun id passport scan here scanned => ?_},fun who clerk here => ?_⟩
    · have ⟨earlier,times⟩ := ledger.past id passport scan here scanned
      exact ⟨Nat.le_trans earlier (Nat.le_add_right _ ms),times⟩
    · have ⟨closes,stands⟩ := each who clerk here
      refine ⟨closes,?_⟩
      cases clerk with
      | saving id scan => exact ⟨stands.1,stands.2.1,Nat.le_trans stands.2.2.1 (Nat.le_add_right _ ms),stands.2.2.2⟩
      | admitting _ _ | selecting _ _ _ => exact stands
      | locking _ _ _ _ _ => exact ⟨stands.1,stands.2.distinct,stands.2.asked,stands.2.locked⟩
      | _ => trivial

-- A statement leaves every order alone, or it closes the orders of a handover that has locked them.
def Closes (before after : Desk) (closure : Closure) : Prop :=
  after.deeds = before.deeds ++ [.closed closure] ∧
  after.depot = handOver closure.now closure.handover.staff.requester.id closure.orders before.depot ∧
  ∀ entry ∈ closure.orders,before.depot.orders.row entry.1 = some entry.2
theorem change_closes {clerk : Clerk} (stands : Stands who g clerk) (change : Change hash who g clerk g' clerk') :
    g'.depot = g.depot ∨ ∃ closure,Closes g g' closure := by
  cases change with
  | quiet quiet unclosed => exact .inl quiet.depot
  | answered done => exact .inl rfl
  | deleted replaced => exact .inl rfl
  | issued unused => exact .inl rfl
  | scanned unused => exact .inl rfl
  | closed all => exact .inr ⟨_,rfl,rfl,fun entry member => (stands.2.locked entry member).2.1⟩

-- The desk after any requests: what was committed is backed by what was committed before it,
-- orders change only as a handover closes those it has locked, a consumed session has closed its
-- orders, and a handover that fails has closed none.
structure SafelyHandedOver (hash : String → String) (now : Nat) (depot : Depot) (turns : List HandoverTurn) : Prop where
  backed : ∀ front deed,front ++ [deed] <+: (serve hash now depot turns).shared.deeds → Backed front deed
  closes : ∀ front turn,front ++ [turn] <+: turns →
    (serve hash now depot (front ++ [turn])).shared.depot = (serve hash now depot front).shared.depot ∨
    ∃ closure,Closes (serve hash now depot front).shared (serve hash now depot (front ++ [turn])).shared closure
  consumed : ∀ id session,(serve hash now depot turns).shared.sessions.row id = some session → session.consumedAt.isSome = true →
    ∃ closure,.closed closure ∈ (serve hash now depot turns).shared.deeds ∧ closure.session = some id
  failed : ∀ (who : Nat) clerk,(serve hash now depot turns).workers[who]? = some clerk → (∀ closure,clerk ≠ .closed closure) →
    ∀ closure,.closed closure ∈ (serve hash now depot turns).shared.deeds → closure.who ≠ who

-- A market's QR scanned by an admin, whose handover is sent twice: the copy waits for the session
-- and finds it used.
def cancelledAtHq : OrderRow :=
  ⟨{marketId:=1,customerId:=2,productQuantity:=1,whereDeliver:=.center,totalPrice:=10000000,marketTariff:=none,courierTariff:=none,
    courierShare:=none,branchShare:=none,branchCashboxAmount:=none,toBePaid:=0,paidAmount:=0,status:=.cancelled,comment:=none,
    operator:=none,operatorId:=none,postId:=some 5,canceledPostId:=none,returnRequested:=true,proofFiles:=none,soldAt:=none,
    districtId:=none,regionId:=none,branchId:=some 3,homeBranchId:=none,currentBatchId:=none,courierId:=none,assignedAt:=none,
    holderType:=.hq,holderBranchId:=none,holderCourierId:=none,lastHandoverAt:=none,lastHandoverBy:=none,
    returnReason:=none,address:=none,qrCodeToken:=none,parentOrderId:=none,externalId:=none,source:=.internal,isDeleted:=false,
    deletedAt:=none,createdAt:=0,updatedAt:=0},[],none⟩
def returnsDepot : Depot := {emptyDepot with orders:=[(11,cancelledAtHq)],nextOrderId:=12}
def hqAdmin : Requester := ⟨2,[.admin],none⟩
def handoverCall : Request := .complete ⟨1,[11],some "MHA-b",[],hqAdmin,.ok none,some none⟩
def sentTwice : List HandoverTurn :=
  [.arrive (.createQr ⟨1,⟨1,[.market],none⟩⟩)] ++ List.replicate 4 (.step 0 (.goes "a")) ++
  [.arrive (.scanQr ⟨"MCR-a",hqAdmin,.ok none⟩),.world 1000] ++ List.replicate 3 (.step 1 (.goes "b")) ++
  [.arrive handoverCall,.arrive handoverCall,.world 1000,.step 2 (.goes ""),.step 3 (.goes ""),.step 2 (.goes ""),.step 3 (.goes "")] ++
  List.replicate 3 (.step 2 (.goes "")) ++ [.step 3 (.goes "")]

end Elchi.Handovers
