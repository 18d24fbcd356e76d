import Mathlib.Data.List.Sort
import Mathlib.Data.Rat.Defs
import Elchi.RecordDiffs
namespace Elchi.Activity
open Diffs

inductive JsNumber where
  | nan | infinite (negative : Bool) | finite (value : Rat)
deriving DecidableEq, Repr

-- A field of a snapshot as computeDiff meets it: an object carries its identity and what
-- JSON.stringify makes of it, which may be nothing, or an exception.
inductive JsValue where
  | undefined | null
  | boolean (b : Bool) | number (n : JsNumber) | bigint (n : Int) | string (s : String)
  | symbol (ref : Nat) | function (ref : Nat)
  | date (ref : Nat) (time : Option Int)
  | object (ref : Nat) (json : Option (Option String))
deriving DecidableEq, Repr

inductive JsType where
  | undefined | boolean | number | bigint | string | symbol | function | object
deriving DecidableEq, Repr

def typeof : JsValue → JsType
  | .undefined => .undefined
  | .null => .object
  | .boolean _ => .boolean
  | .number _ => .number
  | .bigint _ => .bigint
  | .string _ => .string
  | .symbol _ => .symbol
  | .function _ => .function
  | .date _ _ => .object
  | .object _ _ => .object

-- `===`: NaN is not even itself.
def strictEqual (a b : JsValue) : Bool := decide (a = b) && decide (a ≠ .number .nan)

-- The day of the proleptic Gregorian calendar a count of days after 1 January 1970 is.
def civil (days : Int) : Int × Nat × Nat :=
  let z := days + 719468
  let era := z / 146097
  let doe := (z % 146097).toNat
  let yoe := (doe - doe / 1460 + doe / 36524 - doe / 146096) / 365
  let doy := doe - (365 * yoe + yoe / 4 - yoe / 100)
  let mp := (5 * doy + 2) / 153
  let month := if mp < 10 then mp + 3 else mp - 9
  (yoe + era * 400 + (if month ≤ 2 then 1 else 0),month,doy - (153 * mp + 2) / 5 + 1)
def padded (width n : Nat) : String := String.ofList (List.replicate (width - (toString n).length) '0') ++ toString n
def isoYear (year : Int) : String :=
  if 0 ≤ year ∧ year ≤ 9999 then padded 4 year.toNat else (if year < 0 then "-" else "+") ++ padded 6 year.natAbs
def toISOString (ms : Int) : String :=
  let (year,month,day) := civil (ms / 86400000)
  let rest := (ms % 86400000).toNat
  isoYear year ++ "-" ++ padded 2 month ++ "-" ++ padded 2 day ++ "T" ++ padded 2 (rest / 3600000) ++ ":" ++
    padded 2 (rest / 60000 % 60) ++ ":" ++ padded 2 (rest / 1000 % 60) ++ "." ++ padded 3 (rest % 1000) ++ "Z"

-- JSON.stringify of what has the type object; `none` where it throws.
def stringify : JsValue → Option (Option String)
  | .null => some (some "null")
  | .date _ none => some (some "null")
  | .date _ (some time) => some (some ("\"" ++ toISOString time ++ "\""))
  | .object _ json => json
  | _ => some none

def equal (a b : JsValue) : Bool :=
  if strictEqual a b then true
  else if a = .null ∨ b = .null ∨ a = .undefined ∨ b = .undefined then strictEqual a b
  else match a,b with
  | .date _ time,.date _ other => time.isSome && time == other
  | a,b =>
    if typeof a ≠ typeof b then false
    else if typeof a = .object then (stringify a).isSome && stringify a == stringify b
    else false

-- Own fields in their order, no two of one name.
abbrev Record := List (String × JsValue)
def Record.get (record : Record) (key : String) : JsValue := (record.lookup key).getD .undefined

structure DiffResult where
  before : Record
  after : Record
deriving DecidableEq, Repr

def DEFAULT_IGNORED_FIELDS : List String := ["updatedAt","updated_at","createdAt","created_at"]

def computeDiff (before after : Option Record) (ignore : List String) : DiffResult :=
  let ignored := DEFAULT_IGNORED_FIELDS ++ ignore
  let beforeObj := before.getD []
  let afterObj := after.getD []
  let keys := beforeObj.map (·.1) ++ (afterObj.map (·.1)).filter fun key => !(beforeObj.map (·.1)).contains key
  let changed := keys.filter fun key => !ignored.contains key && !equal (beforeObj.get key) (afterObj.get key)
  ⟨changed.map fun key => (key,beforeObj.get key),changed.map fun key => (key,afterObj.get key)⟩

-- What a jsonb column keeps of a field, if it keeps it at all.
inductive Kept where
  | null | boolean (b : Bool) | number (value : Rat) | string (s : String) | text (json : String)
deriving DecidableEq, Repr

def kept : JsValue → Option (Option Kept)
  | .undefined | .symbol _ | .function _ => some none
  | .boolean b => some (some (.boolean b))
  | .number (.finite value) => some (some (.number value))
  | .number _ => some (some .null)
  | .bigint _ => none
  | .string s => some (some (.string s))
  | value => (stringify value).map (·.map .text)

abbrev KeptRecord := List (String × Kept)
def serialize : Record → Option KeptRecord
  | [] => some []
  | (key,value) :: rest => do
    let value ← kept value
    let rest ← serialize rest
    pure ((value.map (key,·)).toList ++ rest)

-- A value that goes into a jsonb column: nothing, a record, or a primitive or array, which is wrapped.
inductive Payload where
  | absent | record (fields : Record) | other (value : JsValue)
deriving DecidableEq, Repr

def normaliseJsonb : Payload → Option Record
  | .absent => none
  | .record fields => some fields
  | .other value => some [("value",value)]

inductive EntityId where
  | text (id : String) | number (id : Int)
deriving DecidableEq, Repr
def EntityId.toText : EntityId → String
  | .text id => id
  | .number id => toString id

structure Context where
  userId : Option String
  traceId : Option String
deriving DecidableEq, Repr

structure ActivityLogInput where
  entity_type : String
  entity_id : EntityId
  action : String
  old_value : Payload
  new_value : Payload
  user_id : Option String
  user_name : Option String
  user_role : Option String
  trace_id : Option String
  metadata : Payload
deriving DecidableEq, Repr

structure ActivityLog where
  id : Nat
  entity_type : String
  entity_id : String
  action : String
  old_value : Option KeptRecord
  new_value : Option KeptRecord
  user_id : Option String
  user_name : Option String
  user_role : Option String
  service : Option String
  trace_id : Option String
  metadata : Option KeptRecord
  created_at : Nat
deriving DecidableEq, Repr

-- A nullable jsonb column: null, or the record it keeps; `none` where the record cannot be written.
def jsonb (payload : Payload) : Option (Option KeptRecord) :=
  match normaliseJsonb payload with
  | none => some none
  | some record => (serialize record).map some

-- What the request and the database add to a call: the request context, the time of the insert and
-- the id the row got, if it was written.
structure Write where
  ctx : Option Context
  now : Nat
  saved : Option Nat
deriving DecidableEq, Repr

def logged (serviceName : Option String) (w : Write) (input : ActivityLogInput) : Option ActivityLog := do
  let oldValue ← jsonb input.old_value
  let newValue ← jsonb input.new_value
  let metadata ← jsonb input.metadata
  let id ← w.saved
  pure {
    id:=id,entity_type:=input.entity_type,entity_id:=input.entity_id.toText,action:=input.action
    old_value:=oldValue,new_value:=newValue
    user_id:=input.user_id <|> w.ctx.bind (·.userId)
    user_name:=input.user_name,user_role:=input.user_role,service:=serviceName
    trace_id:=input.trace_id <|> w.ctx.bind (·.traceId)
    metadata:=metadata,created_at:=w.now}
-- A failed write leaves the table as it is, and the caller does not notice.
def log (serviceName : Option String) (w : Write) (input : ActivityLogInput) (table : List ActivityLog) : List ActivityLog :=
  table ++ (logged serviceName w input).toList

structure ActivityChangeInput where
  entity_type : String
  entity_id : EntityId
  action : Option String
  old_value : Option Record
  new_value : Option Record
  ignore_fields : Option (List String)
  user_id : Option String
  user_name : Option String
  user_role : Option String
  trace_id : Option String
  metadata : Payload
deriving DecidableEq, Repr

def ActivityChangeInput.diff (input : ActivityChangeInput) : DiffResult :=
  computeDiff input.old_value input.new_value (input.ignore_fields.getD [])
def ActivityChangeInput.logInput (input : ActivityChangeInput) : ActivityLogInput := {
  entity_type:=input.entity_type,entity_id:=input.entity_id,action:=input.action.getD "updated"
  old_value:=.record input.diff.before,new_value:=.record input.diff.after
  user_id:=input.user_id,user_name:=input.user_name,user_role:=input.user_role,trace_id:=input.trace_id,metadata:=input.metadata}

def logChange (serviceName : Option String) (w : Write) (input : ActivityChangeInput) (table : List ActivityLog) : List ActivityLog :=
  if input.diff.before.isEmpty && input.diff.after.isEmpty then table else log serviceName w input.logInput table

def findByEntity (entityType : String) (entityId : EntityId) (limit : Int) (table : List ActivityLog) : List ActivityLog :=
  ((table.filter fun row => row.entity_type == entityType && row.entity_id == entityId.toText).mergeSort
    fun a b => b.created_at ≤ a.created_at).take (min (max limit 1) 500).toNat

end Elchi.Activity
