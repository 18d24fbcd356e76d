import Elchi.Cashbox
import Elchi.OrderEpochs
namespace Elchi.Orders
open RowLock

-- The message as finance receives it from the outbox.
def BalanceLeg.dto (leg : BalanceLeg) : Finance.UpdateCashboxBalanceDto :=
  ⟨none,some leg.userId,some leg.cashboxType,leg.amount,leg.operationType,leg.sourceType,some .cash,some leg.sourceId,
    some leg.dedupEpoch,none⟩
-- The cashbox a leg is for and the key it is booked under there.
def BalanceLeg.key (leg : BalanceLeg) : Nat × CashboxType × Finance.DedupKey := (leg.userId,leg.cashboxType,leg.dto.key)

-- The request id of a request that moves money, as the dedup epoch takes it.
def Call.token : Call → String
  | .sell _ _ _ _ requestId => jsTrim (requestId.getD "")
  | .partlySell _ _ _ _ requestId _ => jsTrim (requestId.getD "")
  | .cancel _ _ _ _ requestId => jsTrim (requestId.getD "")
  | .rollback _ _ _ _ requestId => jsTrim (requestId.getD "")
  | _ => ""
-- The gateway draws a new request id for every request.
structure DistinctRequests (calls : List Call) : Prop where
  given : ∀ call ∈ calls,call.settles = true → call.token ≠ ""
  distinct : calls.Pairwise fun call other => call.settles = true → other.settles = true → call.token ≠ other.token

-- The epoch of a leg names the request, and for a correction also its number in the rollback.
def Marked (token : String) (leg : BalanceLeg) : Prop :=
  leg.sourceType ≠ .correction ∧ leg.dedupEpoch = "req:" ++ token ∨
  leg.sourceType = .correction ∧ ∃ seq : Nat,leg.dedupEpoch = "req:" ++ token ++ ":" ++ toString seq

theorem epoch_token (lookups : Lookups) {requestId : Option String} (given : jsTrim (requestId.getD "") ≠ "") :
    resolveDedupEpoch lookups requestId = "req:" ++ jsTrim (requestId.getD "") := by
  simp [resolveDedupEpoch,given]

theorem digits_no_colon (seq : Nat) : ':' ∉ (toString seq).toList := by
  intro member
  have digits : (toString seq).toList = Nat.toDigits 10 seq := Nat.toList_repr
  rw [digits] at member
  exact absurd (Nat.isDigit_of_mem_toDigits (by decide) (by decide) member) (by decide)

-- The last colon separates the request from the number.
theorem split_last {left right tail rest : List Char} (inTail : ':' ∉ tail) (inRest : ':' ∉ rest)
    (same : left ++ ':' :: tail = right ++ ':' :: rest) : left = right := by
  induction left generalizing right with
  | nil =>
    cases right with
    | nil => rfl
    | cons char more =>
      simp only [List.nil_append,List.cons_append,List.cons.injEq] at same
      exact absurd (same.2 ▸ List.mem_append_right more List.mem_cons_self) inTail
  | cons head more ih =>
    cases right with
    | nil =>
      simp only [List.nil_append,List.cons_append,List.cons.injEq] at same
      exact absurd (same.2 ▸ List.mem_append_right more List.mem_cons_self) inRest
    | cons char others =>
      simp only [List.cons_append,List.cons.injEq] at same
      rw [same.1,ih same.2]

theorem marked_token {leg other : BalanceLeg} (marked : Marked token leg) (markedOther : Marked token' other)
    (source : leg.sourceType = other.sourceType) (epoch : leg.dedupEpoch = other.dedupEpoch) : token = token' := by
  rcases marked with ⟨plain,first⟩ | ⟨correction,seq,first⟩
  · rcases markedOther with ⟨-,second⟩ | ⟨correction,-⟩
    · have same : "req:" ++ token = "req:" ++ token' := first.symm.trans (epoch.trans second)
      simpa using same
    · exact absurd (source.trans correction) plain
  · rcases markedOther with ⟨plain,-⟩ | ⟨-,seq',second⟩
    · exact absurd (source.symm.trans correction) plain
    · have texts := congrArg String.toList (first.symm.trans (epoch.trans second))
      have same : ("req:" ++ token).toList ++ ':' :: (toString seq).toList =
          ("req:" ++ token').toList ++ ':' :: (toString seq').toList := by simpa using texts
      have tokens := split_last (digits_no_colon seq) (digits_no_colon seq') same
      have texts : "req:" ++ token = "req:" ++ token' := String.toList_inj.mp tokens
      simpa using texts

-- One leg for each type of cashbox.
theorem movement_types (leg : BalanceLeg) (signed : Int) : ((movement leg signed).map (·.cashboxType)).Sublist [leg.cashboxType] := by
  unfold movement
  split
  · exact .refl _
  · split
    · exact .refl _
    · exact List.nil_sublist _

theorem codLegs_types (leg : BalanceLeg) (marketId : Nat) (courier branch : Option Nat) (marketAmount courierAmount branchAmount : Int) :
    ((codLegs leg marketId courier branch marketAmount courierAmount branchAmount).map (·.cashboxType)).Sublist
      [.forMarket,.forCourier,.branch] := by
  have parts : ([.forMarket,.forCourier,.branch] : List CashboxType) = ([.forMarket] ++ [.forCourier]) ++ [.branch] := rfl
  unfold codLegs
  rw [parts,List.map_append,List.map_append]
  apply List.Sublist.append
  · apply List.Sublist.append
    · exact movement_types _ _
    · cases courier with
      | none => exact List.nil_sublist _
      | some courierId => exact movement_types _ _
  · cases branch with
    | none => exact List.nil_sublist _
    | some branchId => exact movement_types _ _

theorem extraCostLegs_types (leg : BalanceLeg) (marketId : Nat) {actor : Option (Nat × CashboxType)} (extraCost : Int)
    (apart : ∀ expense ∈ actor,expense.2 ≠ .forMarket) :
    ((extraCostLegs leg marketId actor extraCost).map (·.cashboxType)).Nodup := by
  unfold extraCostLegs
  split
  · cases actor with
    | none => simp
    | some expense => simpa using (apart expense rfl).symm
  · exact List.nodup_nil

theorem keys_of_types {legs : List BalanceLeg} (types : (legs.map (·.cashboxType)).Nodup) : (legs.map BalanceLeg.key).Nodup := by
  apply List.Nodup.of_map (fun key : Nat × CashboxType × Finance.DedupKey => key.2.1)
  rw [List.map_map]
  exact types
theorem key_source {leg other : BalanceLeg} (same : leg.key = other.key) : leg.sourceType = other.sourceType :=
  congrArg (fun key : Nat × CashboxType × Finance.DedupKey => key.2.2.sourceType) same
theorem key_epoch {leg other : BalanceLeg} (same : leg.key = other.key) : leg.dedupEpoch = other.dedupEpoch :=
  congrArg (fun key : Nat × CashboxType × Finance.DedupKey => key.2.2.dedupEpoch) same

-- Within one sale a leg is told apart by the type of its cashbox and by what it is for.
theorem salePlan_keys (lookups : Lookups) (requester : Requester) (id : Nat) (order : Order) (requestId : Option String) (courierId : Nat)
    (parties : SaleParties) (terms : SaleTerms) (kind finalComment : String) (proofFiles : List String) (currentPaid : Int)
    (soldAt : Nat) : ((salePlan lookups requester id order requestId courierId parties terms kind finalComment proofFiles currentPaid
      soldAt).legs.map BalanceLeg.key).Nodup := by
  rw [SalePlan.legs,List.map_append,List.nodup_append']
  refine ⟨keys_of_types ((codLegs_types _ _ _ _ _ _ _).nodup (by decide)),keys_of_types (extraCostLegs_types _ _ _ ?_),?_⟩
  · intro expense named
    unfold saleExpense at named
    split at named
    · obtain ⟨_,-,rfl⟩ := Option.map_eq_some_iff.mp named
      exact actorExpense_type _ _
    · obtain ⟨_,-,rfl⟩ := Option.map_eq_some_iff.mp named
      exact actorExpense_type _ _
  · intro key inCod inExtra
    obtain ⟨leg,cod,rfl⟩ := List.mem_map.mp inCod
    obtain ⟨other,extra,same⟩ := List.mem_map.mp inExtra
    have source := key_source same
    rw [(codLegs_of cod).source,(extraCostLegs_of extra).source] at source
    cases source

-- Within one rollback by its number.
theorem numbered_keys (epoch : String) (legs : List BalanceLeg) : ((numbered epoch legs).map BalanceLeg.key).Nodup := by
  apply List.Nodup.of_map (fun key : Nat × CashboxType × Finance.DedupKey => key.2.2.dedupEpoch)
  have epochs : ((numbered epoch legs).map BalanceLeg.key).map (fun key => key.2.2.dedupEpoch) =
      (legs.zipIdx.map Prod.snd).map fun seq => epoch ++ ":" ++ toString seq := by
    simp only [numbered,List.map_map]
    rfl
  rw [epochs,List.zipIdx_map_snd]
  apply List.Nodup.map
  · intro first second same
    have digits : toString first = toString second := by simpa using same
    have parsed := congrArg (fun text => Nat.ofDigitChars 10 text.toList 0) digits
    simpa [Nat.toString_eq_ofList_toDigits] using parsed
  · exact List.nodup_range'

theorem numbered_epoch {leg : BalanceLeg} (member : leg ∈ numbered epoch legs) :
    ∃ seq : Nat,leg.dedupEpoch = epoch ++ ":" ++ toString seq := by
  obtain ⟨entry,-,rfl⟩ := List.mem_map.mp member
  exact ⟨entry.2,rfl⟩

theorem of_marked {leg made : BalanceLeg} (of : Of leg made) (plain : leg.sourceType ≠ .correction)
    (epoch : leg.dedupEpoch = "req:" ++ token) : Marked token made := by
  obtain ⟨_,_,_,_,rfl⟩ := of
  exact .inl ⟨plain,epoch⟩

theorem partialSale_events (plan : SalePlan) (price : Int) : (partialSale plan price).events = plan.events := rfl

theorem sale_marked {leg : BalanceLeg} {id : Nat} {requestId : Option String} (given : jsTrim (requestId.getD "") ≠ "")
    (member : leg ∈ (salePlan lookups requester id order requestId courierId parties terms kind comment files paid soldAt).legs) :
    Marked (jsTrim (requestId.getD "")) leg := by
  have epoch := epoch_token lookups given
  rcases List.mem_append.mp member with cod | extra
  · apply of_marked (codLegs_of cod)
    · simp [saleLeg]
    · simpa only [saleLeg] using epoch
  · apply of_marked (extraCostLegs_of extra)
    · simp [saleLeg]
    · simpa only [saleLeg] using epoch

theorem reversal_marked {leg : BalanceLeg} {id : Nat} {requestId : Option String} (given : jsTrim (requestId.getD "") ≠ "")
    (member : leg ∈ (reversal lookups requester id order target requestId courierId parties).legs) :
    Marked (jsTrim (requestId.getD "")) leg := by
  obtain ⟨seq,epoch⟩ := numbered_epoch member
  refine .inr ⟨reversal_source member,seq,?_⟩
  rw [epoch,←epoch_token lookups given]
  simp only [reversal]

theorem legsOf_cancel {id : Nat} (planned : cancelPlan lookups requester id order dto requestId = .ok plan) (after : Order) :
    legsOf (plan.extra.map OrderEvent.balance ++ plan.record ++ statusEvents id before after) = plan.extra := by
  obtain ⟨-,_,_,_,-,-,recorded,-⟩ := cancelPlan_parts planned
  have record : legsOf plan.record = [] := by
    rw [recorded,extraCostRecord]
    split
    · rfl
    · rfl
  rw [legsOf_append,legsOf_append,legsOf_balance,legsOf_status,record,List.append_nil,List.append_nil]

-- What one transaction enqueues: legs with distinct keys, all marked with its own request.
theorem transaction_keys {held : List (Held OrderRow OrderEvent)} (made : Transaction held note writes entries)
    (given : note.call.settles = true → note.call.token ≠ "") :
    (note.call.settles = false → legsOf (entries.map (·.2)) = []) ∧
    ((legsOf (entries.map (·.2))).map BalanceLeg.key).Nodup ∧
    ∀ leg ∈ legsOf (entries.map (·.2)),Marked note.call.token leg := by
  cases made with
  | sell planned locked waiting passed =>
    obtain ⟨-,_,_,_,_,_,-,-,rfl⟩ := sellPlan_parts planned
    rw [legsOf_own,legsOf_append,legsOf_sale,legsOf_status,List.append_nil]
    exact ⟨nofun,salePlan_keys _ _ _ _ _ _ _ _ _ _ _ _ _,fun leg member => sale_marked (given rfl) member⟩
  | partlySell planned locked waiting passed apart childNew =>
    obtain ⟨-,_,_,_,_,_,_,-,-,same⟩ := partlySellPlan_parts planned
    rw [legsOf_own,legsOf_append,legsOf_status,List.append_nil,same,partialSale_events,legsOf_sale]
    exact ⟨nofun,salePlan_keys _ _ _ _ _ _ _ _ _ _ _ _ _,fun leg member => sale_marked (given rfl) member⟩
  | cancel planned locked waiting passed =>
    rw [legsOf_own,legsOf_cancel planned]
    obtain ⟨-,_,_,_,-,extra,-,-⟩ := cancelPlan_parts planned
    rw [extra]
    refine ⟨nofun,keys_of_types (extraCostLegs_types _ _ _ ?_),?_⟩
    · intro expense named
      cases named
      exact actorExpense_type _ _
    · intro leg member
      apply of_marked (extraCostLegs_of member)
      · simp [saleLeg]
      · simpa only [saleLeg,Call.token] using epoch_token _ (given rfl)
  | rollback target allowed planned locked unchanged passed merged =>
    obtain ⟨_,_,-,-,rfl⟩ := rollbackPlan_parts planned
    rw [legsOf_own,legsOf_append,legsOf_reversal,legsOf_status,List.append_nil]
    exact ⟨nofun,numbered_keys _ _,fun leg member => reversal_marked (given rfl) member⟩
  | update passed =>
    rw [legsOf_own,legsOf_status]
    exact ⟨fun _ => rfl,List.nodup_nil,fun _ member => absurd member List.not_mem_nil⟩
  | _ => exact ⟨fun _ => rfl,List.nodup_nil,fun _ member => absurd member List.not_mem_nil⟩

-- The outbox of the order service along a run: no key twice, and every leg the work of a
-- request that has committed.
def Distinct (calls : List Call) (m : Service) : Prop :=
  ((legsOf (m.journal.map (·.2))).map BalanceLeg.key).Nodup ∧
  ∀ leg ∈ legsOf (m.journal.map (·.2)),∃ (who : Nat) (call : Call),calls[who]? = some call ∧ call.settles = true ∧
    m.notes who ≠ [] ∧ Marked call.token leg

theorem tokens_apart {calls : List Call} (distinct : DistinctRequests calls) {who other : Nat} {call call' : Call}
    (here : calls[who]? = some call) (there : calls[other]? = some call') (apart : who ≠ other) (settles : call.settles = true)
    (settles' : call'.settles = true) : call.token ≠ call'.token := by
  obtain ⟨inside,rfl⟩ := List.getElem?_eq_some_iff.mp here
  obtain ⟨inside',rfl⟩ := List.getElem?_eq_some_iff.mp there
  have pairs := List.pairwise_iff_getElem.mp distinct.distinct
  rcases Nat.lt_or_gt_of_ne apart with before | after
  · exact pairs who other inside inside' before settles settles'
  · exact (pairs other who inside' inside after settles' settles).symm

theorem advance_distinct {calls : List Call} {m : Service} (requests : DistinctRequests calls)
    (sound : m.Sound AnyRow (fun who held made note writes entries =>
      ∃ call,calls[who]? = some call ∧ Makes call held made note writes entries) fun _ => Answers)
    (distinct : Distinct calls m) (turn : Turn) : Distinct calls (m.advance turn) := by
  rcases advance_parts m turn with ⟨-,journal,log⟩ | ⟨who,note,writes,entries,next,held,here,-,result⟩
  · unfold Distinct Machine.notes at distinct ⊢
    rwa [journal,log]
  obtain ⟨call,called,rfl,first,made⟩ := (sound.safe who _ here).2.2.2.1
  obtain ⟨quiet,keys,marked⟩ := transaction_keys made (requests.given _ (List.mem_of_getElem? called))
  obtain ⟨old,owned⟩ := distinct
  have journal : legsOf ((m.advance turn).journal.map (·.2)) = legsOf (m.journal.map (·.2)) ++ legsOf (entries.map (·.2)) := by
    rw [result,List.map_append,legsOf_append]
  have notes : ∀ other,m.notes other ≠ [] → (m.advance turn).notes other ≠ [] := by
    intro other some empty
    rw [result] at empty
    simp only [Machine.notes,List.filterMap_append,List.append_eq_nil_iff] at empty
    exact some empty.1
  have noted : (m.advance turn).notes who ≠ [] := by
    rw [result]
    simp [Machine.notes]
  unfold Distinct
  rw [journal,List.map_append,List.nodup_append']
  refine ⟨⟨old,keys,?_⟩,?_⟩
  · intro key inOld inNew
    obtain ⟨leg,before,rfl⟩ := List.mem_map.mp inOld
    obtain ⟨leg',now,same⟩ := List.mem_map.mp inNew
    obtain ⟨other,call',there,settles',committed,mark⟩ := owned leg before
    have settles : note.call.settles = true := by
      cases still : note.call.settles with
      | true => rfl
      | false =>
        rw [quiet still] at now
        cases now
    -- this request had not committed before, the one of the older leg had
    have apart : who ≠ other := by
      rintro rfl
      exact committed (first settles)
    exact tokens_apart requests called there apart settles settles' (marked_token (marked leg' now) mark (key_source same) (key_epoch same))
  · intro leg member
    rcases List.mem_append.mp member with before | now
    · obtain ⟨other,call',there,settles',committed,mark⟩ := owned leg before
      exact ⟨other,call',there,settles',notes other committed,mark⟩
    · refine ⟨who,note.call,called,?_,noted,marked leg now⟩
      cases still : note.call.settles with
      | true => rfl
      | false =>
        rw [quiet still] at now
        cases now

theorem run_distinct {calls : List Call} {m : Service} (requests : DistinctRequests calls)
    (sound : m.Sound AnyRow (fun who held made note writes entries =>
      ∃ call,calls[who]? = some call ∧ Makes call held made note writes entries) fun _ => Answers)
    (distinct : Distinct calls m) (turns : List Turn) : Distinct calls (m.run turns) := by
  induction turns generalizing m with
  | nil => exact distinct
  | cons turn rest ih => exact ih (advance_sound sound turn) (advance_distinct requests sound distinct turn)

theorem serve_distinct {table : Table OrderRow} (keyed : table.Keyed) (below : ∀ key ∈ table.map (·.1),key < nextId)
    {calls : List Call} (requests : DistinctRequests calls) (turns : List Turn) : Distinct calls (serve table nextId calls turns) := by
  apply run_distinct requests (serve_sound keyed below calls [])
  exact ⟨List.nodup_nil,nofun⟩

end Elchi.Orders
