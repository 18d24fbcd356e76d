import Elchi.Outbox
import Elchi.PaymentSafety
namespace Elchi.Transfers
open RowLock Finance
variable {α : Type}

-- A payment as a client submits it; `payload` is the JSON text of what the gateway fingerprints.
inductive Payment where
  | courier (data : CourierPayment)
  | branch (data : BranchPayment)
  | market (data : MarketPayment)
deriving DecidableEq, Repr
structure Submit where
  idempotencyKey : Option String
  actorId : Nat
  payload : String
  submittedAt : Nat
  handledAt : Nat
  payment : Payment
deriving DecidableEq, Repr

def Payment.kind : Payment → String
  | .courier _ => "payment_courier"
  | .branch _ => "payment_branch_main"
  | .market _ => "payment_market"

def manualTransferDedupWindowMs : Nat := 30000
def resolveTransferToken (sha256 : String → String) (idempotencyKey : Option String) (kind actorId payload : String) (now : Nat) : String :=
  let key := jsTrim (idempotencyKey.getD "")
  if key ≠ "" then key
  else sha256 ("|".intercalate ["manual-transfer",kind,actorId,payload,toString (now / manualTransferDedupWindowMs)])

def Submit.token (sha256 : String → String) (submit : Submit) : String :=
  resolveTransferToken sha256 submit.idempotencyKey submit.payment.kind (toString submit.actorId) submit.payload submit.submittedAt
-- What the gateway sends on to the finance service.
def Submit.call (sha256 : String → String) (submit : Submit) : Call :=
  match submit.payment with
  | .courier data => .paymentsFromCourier submit.handledAt {data with createdBy:=some submit.actorId,dedupEpoch:=some (submit.token sha256)}
  | .branch data => .paymentFromBranchToMain submit.handledAt {data with createdBy:=some submit.actorId,dedupEpoch:=some (submit.token sha256)}
  | .market data => .paymentsToMarket submit.handledAt {data with createdBy:=some submit.actorId,dedupEpoch:=some (submit.token sha256)}

-- A payment whose cash leg is committed, with the advance in its outbox row.
abbrev Enqueued := Nat × SettlementAdvance
def enqueuedBy : Movement → Option SettlementAdvance
  | .payment advance => some advance
  | _ => none
def committed (log : List (Commit Row CashboxHistory Movement)) : List Enqueued :=
  log.filterMap fun commit => (enqueuedBy commit.note).map (commit.who,·)

-- The order service: a record for each idempotency key, and the advances its handler has
-- committed. Without a request id every delivery runs the handler.
structure Consumer (α : Type) where
  records : String → Option (Outbox.KeyRecord α)
  applied : List Enqueued
structure Sent (α : Type) where
  event : Enqueued
  delivery : Outbox.Delivery α

def advanceKey (token : String) : String := "order.settlement.advance:" ++ token
def keyOf (event : Enqueued) : Option String := event.2.requestId.map advanceKey
def commits : Outbox.Worker α → Nat
  | .returns _ | .diesAfter | .unrecorded _ => 1
  | .throws _ _ | .diesBefore => 0
def Consumer.deliver (consumer : Consumer α) (sent : Sent α) : Consumer α :=
  match keyOf sent.event with
  | none => {consumer with applied:=consumer.applied ++ List.replicate (commits sent.delivery.worker) sent.event}
  | some key =>
    let outcome := Outbox.executeIdempotent key (consumer.records key) sent.delivery
    ⟨fun other => if other = key then outcome.record else consumer.records other,
      consumer.applied ++ List.replicate outcome.committed sent.event⟩
def consumeAll (sent : List (Sent α)) : Consumer α := sent.foldl Consumer.deliver ⟨fun _ => none,[]⟩
def deliveriesOf (key : String) (sent : List (Sent α)) : List (Outbox.Delivery α) :=
  (sent.filter fun one => keyOf one.event == some key).map (·.delivery)

def appliedFor (consumer : Consumer α) (who : Nat) : List SettlementAdvance := (consumer.applied.filter fun event => event.1 == who).map (·.2)
def committedFor (log : List (Commit Row CashboxHistory Movement)) (who : Nat) : List SettlementAdvance :=
  ((committed log).filter fun event => event.1 == who).map (·.2)

-- One key of the consumer, as the outbox sees it.
def Consumer.view (consumer : Consumer α) (key : String) : Outbox.World α :=
  ⟨⟨.pending,0⟩,consumer.records key,(consumer.applied.filter fun event => keyOf event == some key).length⟩

theorem deliver_view (consumer : Consumer α) (sent : Sent α) (key : String) : (consumer.deliver sent).view key =
    if keyOf sent.event = some key then ((consumer.view key).deliver key sent.delivery).1 else consumer.view key := by
  cases own : keyOf sent.event with
  | none => simp [Consumer.deliver,Consumer.view,own]
  | some other =>
    by_cases same : other = key
    · subst same
      simp [Consumer.deliver,Consumer.view,Outbox.World.deliver,own]
    · simp [Consumer.deliver,Consumer.view,own,same,Ne.symm same]

theorem deliverAll_view (sent : List (Sent α)) (consumer : Consumer α) (key : String) : (sent.foldl Consumer.deliver consumer).view key =
    ((consumer.view key).deliverAll key (deliveriesOf key sent)).1 := by
  induction sent generalizing consumer with
  | nil => rfl
  | cons first rest ih =>
    rw [List.foldl_cons,ih,deliver_view]
    by_cases own : keyOf first.event = some key
    · simp [deliveriesOf,own,Outbox.World.deliverAll]
    · simp [deliveriesOf,own]

-- A key whose deliveries are clean is applied exactly once.
theorem clean_once {sent : List (Sent α)} {key : String} (clean : Outbox.Clean none (deliveriesOf key sent)) :
    ((consumeAll sent).applied.filter fun event => keyOf event == some key).length = 1 := by
  have idle : Outbox.Phase ([] : List (Outbox.Delivery α)) (Consumer.view ⟨fun _ => none,[]⟩ key) :=
    .waiting none ⟨rfl,rfl⟩ fun _ => Iff.rfl
  have phase := Outbox.phase_deliverAll key idle (deliveriesOf key sent)
  rw [←deliverAll_view] at phase
  exact (phase.clean_exact.mp clean).2

theorem applied_sent (sent : List (Sent α)) (consumer : Consumer α) : ∀ event ∈ (sent.foldl Consumer.deliver consumer).applied,
    event ∈ consumer.applied ∨ ∃ one ∈ sent,one.event = event := by
  induction sent generalizing consumer with
  | nil => exact fun event member => .inl member
  | cons first rest ih =>
    intro event member
    rcases ih _ event member with old | ⟨one,inRest,same⟩
    · have split : ∃ times,(consumer.deliver first).applied = consumer.applied ++ List.replicate times first.event := by
        unfold Consumer.deliver
        split
        · exact ⟨_,rfl⟩
        · exact ⟨_,rfl⟩
      obtain ⟨times,grown⟩ := split
      rw [grown] at old
      rcases List.mem_append.mp old with before | now
      · exact .inl before
      · exact .inr ⟨first,List.mem_cons_self,(List.eq_of_mem_replicate now).symm⟩
    · exact .inr ⟨one,List.mem_cons_of_mem _ inRest,same⟩

-- In a list where `name` is not repeated, an entry is the only one of its name.
theorem only_one {β : Type} {name : β → Nat} {entries : List β} (distinct : (entries.map name).Nodup) {entry : β}
    (member : entry ∈ entries) : (entries.filter fun other => name other == name entry) = [entry] := by
  induction entries with
  | nil => cases member
  | cons first rest ih =>
    obtain ⟨absent,tail⟩ := List.nodup_cons.mp distinct
    rcases List.mem_cons.mp member with rfl | later
    · have others : (rest.filter fun other => name other == name entry) = [] := by
        apply List.filter_eq_nil_iff.mpr
        intro other inRest same
        exact absent (List.mem_map.mpr ⟨other,inRest,eq_of_beq same⟩)
      rw [List.filter_cons_of_pos (by simp),others]
    · have different : name first ≠ name entry := fun same => absent (List.mem_map.mpr ⟨entry,later,same.symm⟩)
      rw [List.filter_cons_of_neg (by simpa using different),ih tail later]

theorem keyOf_exact {left right : Enqueued} (same : keyOf left = keyOf right) : left.2.requestId = right.2.requestId := by
  unfold keyOf at same
  cases first : left.2.requestId with
  | none =>
    rw [first,Option.map_none] at same
    exact (Option.map_eq_none_iff.mp same.symm).symm
  | some token =>
    rw [first,Option.map_some] at same
    obtain ⟨other,second,equal⟩ := Option.map_eq_some_iff.mp same.symm
    rw [second,(String.append_right_inj _).mp equal]

-- The consumer's side alone: for events of different payments, all with tokens and with clean
-- deliveries, each is applied for its own payment exactly when no two share a token.
theorem agree_exact {events : List Enqueued} {sent : List (Sent α)} (once : (events.map (·.1)).Nodup)
    (tokened : ∀ event ∈ events,∃ token,event.2.requestId = some token) (known : ∀ one ∈ sent,one.event ∈ events)
    (clean : ∀ event ∈ events,∀ key,keyOf event = some key → Outbox.Clean none (deliveriesOf key sent)) :
    (∀ who,appliedFor (consumeAll sent) who = (events.filter fun event => event.1 == who).map (·.2)) ↔
      (events.map (·.2.requestId)).Nodup := by
  have inside : ∀ event ∈ (consumeAll sent).applied,event ∈ events := by
    intro event member
    rcases applied_sent sent _ event member with none | ⟨one,inSent,rfl⟩
    · cases none
    · exact known one inSent
  have keyed : ∀ event ∈ events,∃ key,keyOf event = some key := by
    intro event member
    obtain ⟨token,has⟩ := tokened event member
    exact ⟨advanceKey token,by rw [keyOf,has,Option.map_some]⟩
  have named : ∀ left ∈ events,∀ right ∈ events,left.1 = right.1 → left = right :=
    fun left inLeft right inRight => List.inj_on_of_nodup_map once inLeft inRight
  constructor
  · intro agree
    apply (List.nodup_map_iff_inj_on (List.Nodup.of_map _ once)).mpr
    -- two events of one token would both be applied under its key
    have reached : ∀ event ∈ events,event ∈ (consumeAll sent).applied := by
      intro event member
      have own := agree event.1
      rw [only_one once member] at own
      obtain ⟨other,inFilter,-⟩ := List.mem_map.mp (own ▸ List.mem_singleton.mpr rfl : event.2 ∈ appliedFor (consumeAll sent) event.1)
      obtain ⟨applied,same⟩ := List.mem_filter.mp inFilter
      rw [←named other (inside other applied) event member (eq_of_beq same)]
      exact applied
    intro left inLeft right inRight same
    obtain ⟨key,has⟩ := keyed left inLeft
    have also : keyOf right = some key := by rw [←has,keyOf,keyOf,same]
    obtain ⟨one,only⟩ := List.length_eq_one_iff.mp (clean_once (clean left inLeft key has))
    have first : left ∈ [one] := only ▸ List.mem_filter.mpr ⟨reached left inLeft,by simp [has]⟩
    have second : right ∈ [one] := only ▸ List.mem_filter.mpr ⟨reached right inRight,by simp [also]⟩
    rw [List.mem_singleton.mp first,List.mem_singleton.mp second]
  · intro distinct who
    by_cases paid : ∃ event ∈ events,event.1 = who
    · obtain ⟨event,member,rfl⟩ := paid
      obtain ⟨key,has⟩ := keyed event member
      obtain ⟨one,only⟩ := List.length_eq_one_iff.mp (clean_once (clean event member key has))
      have matched : ∀ other ∈ events,keyOf other = some key → other = event := by
        intro other inOther same
        exact List.inj_on_of_nodup_map distinct inOther member (keyOf_exact (same.trans has.symm))
      have own : (consumeAll sent).applied.filter (fun other => other.1 == event.1) =
          (consumeAll sent).applied.filter fun other => keyOf other == some key := by
        apply List.filter_congr
        intro other applied
        rw [Bool.eq_iff_iff,beq_iff_eq,beq_iff_eq]
        constructor
        · intro same
          rw [named other (inside other applied) event member same,has]
        · intro same
          rw [matched other (inside other applied) same]
      have is : one = event := by
        have here : one ∈ (consumeAll sent).applied.filter fun other => keyOf other == some key := only ▸ List.mem_singleton.mpr rfl
        obtain ⟨applied,same⟩ := List.mem_filter.mp here
        exact matched one (inside one applied) (eq_of_beq same)
      rw [appliedFor,own,only,is,only_one once member]
    · have none : ∀ entries : List Enqueued,(∀ event ∈ entries,event ∈ events) → entries.filter (fun event => event.1 == who) = [] := by
        intro entries within
        apply List.filter_eq_nil_iff.mpr
        intro event member same
        exact paid ⟨event,within event member,eq_of_beq same⟩
      rw [appliedFor,none _ inside,none events fun _ member => member]

-- The finance service's side: what it has committed of the submitted payments.
def pay (sha256 : String → String) (schema : Schema) (submits : List Submit) (turns : List Turn) : PaymentRun :=
  schema.pay (submits.map (Submit.call sha256)) turns

theorem submit_pays (sha256 : String → String) (submit : Submit) : (submit.call sha256).pays = true := by
  unfold Submit.call
  split
  · rfl
  · rfl
  · rfl

theorem pays_sound (sha256 : String → String) (schema : Schema) (submits : List Submit) (turns : List Turn) :
    (pay sha256 schema submits turns).Sound Anything (Pays (submits.map (Submit.call sha256))) fun _ => Whole := by
  apply pay_sound
  intro call member
  obtain ⟨submit,-,rfl⟩ := List.mem_map.mp member
  exact submit_pays sha256 submit

theorem committed_once (sha256 : String → String) (schema : Schema) (submits : List Submit) (turns : List Turn) :
    ((committed (pay sha256 schema submits turns).log).map (·.1)).Nodup := by
  have single : ∀ who,((pay sha256 schema submits turns).notes who).length ≤ 1 := by
    apply run_once (pays_sound sha256 schema submits [])
    · rintro who held made note writes entries ⟨call,-,first,-⟩
      exact first
    · intro who
      exact Nat.zero_le 1
  have counted : ∀ (log : List (Commit Row CashboxHistory Movement)) who,((committed log).map (·.1)).count who ≤
      (log.filterMap fun c => if c.who = who then some c.note else none).length := by
    intro log who
    induction log with
    | nil => exact Nat.le_refl 0
    | cons commit rest ih =>
      unfold committed at ih ⊢
      cases paid : enqueuedBy commit.note with
      | none =>
        by_cases own : commit.who = who
        · simp [paid,own] at ih ⊢
          omega
        · simpa [paid,own] using ih
      | some advance =>
        by_cases own : commit.who = who
        · simpa [paid,own] using ih
        · simpa [paid,own] using ih
  apply List.nodup_iff_count_le_one.mpr
  intro who
  exact Nat.le_trans (counted _ who) (single who)

theorem committed_own (sha256 : String → String) (schema : Schema) (submits : List Submit) (turns : List Turn) {event : Enqueued}
    (member : event ∈ committed (pay sha256 schema submits turns).log) :
    ∃ submit,submits[event.1]? = some submit ∧ (submit.call sha256).advance = some event.2 := by
  obtain ⟨commit,inLog,same⟩ := List.mem_filterMap.mp member
  obtain ⟨⟨made,call,here,-,own,-⟩,-⟩ := (pays_sound sha256 schema submits turns).logged commit inLog
  obtain ⟨advance,noted,rfl⟩ := Option.map_eq_some_iff.mp same
  rw [List.getElem?_map,Option.map_eq_some_iff] at here
  obtain ⟨submit,found,rfl⟩ := here
  refine ⟨submit,found,own advance ?_⟩
  cases note : commit.note with
  | payment other =>
    rw [note] at noted
    cases noted
    rfl
  | _ =>
    rw [note] at noted
    cases noted

theorem dropWhile_front {chars kept : List Char} {space : Char → Bool} (front : kept <+: chars.dropWhile space) :
    kept.dropWhile space = kept := by
  cases kept with
  | nil => rfl
  | cons first rest =>
    obtain ⟨more,whole⟩ := front
    have visible := List.head?_dropWhile_not space chars
    rw [←whole] at visible
    exact List.dropWhile_cons_of_neg (by simpa using visible)

theorem trim_trimmed (text : String) : jsTrim (jsTrim text) = jsTrim text := by
  unfold jsTrim
  rw [String.toList_ofList]
  congr 1
  generalize text.toList = chars
  have front : ((chars.dropWhile jsSpace).reverse.dropWhile jsSpace).reverse <+: chars.dropWhile jsSpace := by
    rw [←List.reverse_suffix,List.reverse_reverse]
    exact List.dropWhile_suffix _
  rw [dropWhile_front front,List.reverse_reverse,dropWhile_front List.prefix_rfl]

theorem call_tokened {sha256 : String → String} (hex : ∀ text,jsTrim (sha256 text) ≠ "") {submit : Submit} {advance : SettlementAdvance}
    (own : (submit.call sha256).advance = some advance) : advance.requestId = some (jsTrim (submit.token sha256)) := by
  have some : jsTrim (submit.token sha256) ≠ "" := by
    unfold Submit.token resolveTransferToken
    dsimp only
    split
    · rename_i key
      rwa [trim_trimmed]
    · exact hex _
  unfold Submit.call at own
  split at own
  · cases own
    simp [CourierPayment.advance,settlementAdvance,dedupKey,some]
  · cases own
    simp [settlementAdvance,dedupKey,some]
  · cases own
    simp [settlementAdvance,dedupKey,some]

-- Every committed payment is a submitted one, once. With clean deliveries its advance, and no
-- other, is applied for it exactly when no two committed payments carry one token.
theorem transfers_agree_exact (sha256 : String → String) (hex : ∀ text,jsTrim (sha256 text) ≠ "") (schema : Schema) (submits : List Submit)
    (turns : List Turn) (sent : List (Sent α)) (known : ∀ one ∈ sent,one.event ∈ committed (pay sha256 schema submits turns).log)
    (clean : ∀ event ∈ committed (pay sha256 schema submits turns).log,∀ key,keyOf event = some key →
      Outbox.Clean none (deliveriesOf key sent)) :
    let run := pay sha256 schema submits turns
    (∀ event ∈ committed run.log,committedFor run.log event.1 = [event.2] ∧
      ∃ submit,submits[event.1]? = some submit ∧ (submit.call sha256).advance = some event.2) ∧
    ((∀ who,appliedFor (consumeAll sent) who = committedFor run.log who) ↔
      ((committed run.log).map fun event => event.2.requestId).Nodup) := by
  have once := committed_once sha256 schema submits turns
  constructor
  · intro event member
    refine ⟨?_,committed_own sha256 schema submits turns member⟩
    rw [committedFor,only_one once member]
    rfl
  · apply agree_exact once ?_ known clean
    intro event member
    obtain ⟨submit,-,own⟩ := committed_own sha256 schema submits turns member
    exact ⟨_,call_tokened hex own⟩

-- Two couriers with 500 each; the digest is not needed for clients that send their own keys.
def twoCouriers : Schema where
  table := [(1,.cashbox ⟨50000,50000,0,.forCourier,7,false⟩),(2,.cashbox ⟨50000,50000,0,.forCourier,8,false⟩)]
  journal := []
  nextId := 3
  keyed := by decide
  below := by decide
  refers := by simp
def digest (_ : String) : String := "e3b0c44298fc1c149afbf4c8996fb92427ae41e4649b934ca495991b7852b855"
theorem digest_visible (text : String) : jsTrim (digest text) ≠ "" := by
  unfold digest
  decide
def submitted (courier : Nat) (key : String) (amount : Int) : Submit :=
  ⟨some key,1,"",0,10,.courier ⟨courier,amount,none,none,none,none,none,none⟩⟩
-- Every outbox row is delivered, and the handler returns.
def relayed (log : List (Commit Row CashboxHistory Movement)) : List (Sent Nat) :=
  (committed log).map fun event => ⟨event,⟨100,false,.returns 1⟩⟩

theorem relayed_clean (log : List (Commit Row CashboxHistory Movement)) {event : Enqueued} (member : event ∈ committed log) {key : String}
    (own : keyOf event = some key) : Outbox.Clean none (deliveriesOf key (relayed log)) := by
  have returned : ∀ d ∈ deliveriesOf key (relayed log),d.worker = .returns 1 := by
    intro d inside
    obtain ⟨one,inFilter,rfl⟩ := List.mem_map.mp inside
    obtain ⟨other,-,rfl⟩ := List.mem_map.mp (List.mem_of_mem_filter inFilter)
    rfl
  have here : ⟨100,false,.returns 1⟩ ∈ deliveriesOf key (relayed log) := by
    refine List.mem_map.mpr ⟨⟨event,_⟩,List.mem_filter.mpr ⟨List.mem_map.mpr ⟨event,member,rfl⟩,?_⟩,rfl⟩
    simp [own]
  cases found : deliveriesOf key (relayed log) with
  | nil =>
    rw [found] at here
    cases here
  | cons d rest =>
    have first := returned d (found ▸ List.mem_cons_self)
    simp [Outbox.Clean,first]

-- The first courier's payment arrives twice under its key; the second's has a key of its own.
def apartSubmits : List Submit := [submitted 7 "k1" 10000,submitted 7 " k1" 10000,submitted 8 "k2" 20000]
theorem transfers_agree_exact_apart :
    let run := pay digest twoCouriers apartSubmits (inOrder 3)
    run.log.map (·.note) = [.payment ⟨.courierToBranch,7,10000,some 1,some "k1"⟩,.paymentReplay,
      .payment ⟨.courierToBranch,8,20000,some 1,some "k2"⟩] ∧
    ∀ who,appliedFor (consumeAll (relayed run.log)) who = committedFor run.log who := by
  refine ⟨by decide,?_⟩
  apply (transfers_agree_exact digest digest_visible twoCouriers apartSubmits (inOrder 3) _ ?_ ?_).2.mpr (by decide)
  · intro one member
    obtain ⟨event,inLog,rfl⟩ := List.mem_map.mp member
    exact inLog
  · intro event member key own
    exact relayed_clean _ member own

-- The key of one courier's payment reused for the other's: both cash legs move, one advance is applied.
def sharedSubmits : List Submit := [submitted 7 "k1" 10000,submitted 8 "k1" 20000]
theorem advance_swallowed :
    let run := pay digest twoCouriers sharedSubmits (inOrder 2)
    committedFor run.log 1 = [⟨.courierToBranch,8,20000,some 1,some "k1"⟩] ∧ appliedFor (consumeAll (relayed run.log)) 1 = [] ∧
    run.table.row 2 = some (.cashbox ⟨30000,30000,0,.forCourier,8,false⟩) := by
  decide

end Elchi.Transfers
