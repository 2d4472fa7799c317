import AgentGateway.Py.Calls
import AgentGateway.Py.Values

/-!
# Usage payloads and their digests

An event of the commercial usage outbox is a JSON object that names itself (`source_event_id`) and
carries a digest of its own content (`source_payload_sha256`).  The digest is not one of the bytes
that are stored: it is taken of a canonical text (`canonicalJson`) of a normalized body
(`normalizedUsageBody`), from which the digest itself and an empty `selection_provenance` have been
dropped, and in which numbers are written as decimals.  The evidence that is stored is the rendering
of the payload as it is (`payloadJson`).

SHA-256, decimals, dates and the one constant of the usage contract are left open in `Env`.
-/

namespace AgentGateway.UsageOutbox

open Py

/-- What a text is as a time: none, one without a zone, or one that has this text in UTC. -/
inductive SourceTime where
  | invalid
  | naive
  | aware (utc : Str)

/-- What the module takes from the interpreter and from the usage contract. -/
structure Env (F : Type) where
  interp : Interp F
  /-- `format(Decimal(text), "f")`, if that is a finite number -/
  decimal : Str → Option (List Char)
  /-- `hashlib.sha256(text.encode("utf-8")).hexdigest()` -/
  sha256 : List Char → Str
  /-- `datetime.fromisoformat(text.replace("Z", "+00:00"))` -/
  sourceTime : Str → SourceTime
  /-- `_utc_text` -/
  utcText : Int → Option Str
  /-- `version == SHIPPABLE_USAGE_PAYLOAD_SCHEMA_VERSION` -/
  isShippable : Option (Json F) → Bool
  /-- `repr(version)` -/
  reprVersion : Option (Json F) → Str

inductive OutboxError where
  /-- `ValueError` -/
  | value (message : String)
  /-- what rendering a payload raises -/
  | rendering
  /-- `CommercialUsageOutboxConflict` -/
  | conflict (message : String) (eventId : Str)
  /-- `sqlite3.IntegrityError` -/
  | integrity
deriving DecidableEq

variable {F : Type} [PyFloat F] (E : Env F)

/-! ## The canonical text -/

/-- The text of a decimal: no trailing zeros, and no negative zero. -/
def decimalText (rendered : List Char) : List Char :=
  let trimmed :=
    if '.' ∈ rendered then ((rendered.rdropWhile (· == '0')).rdropWhile (· == '.')) else rendered
  if trimmed = ['-', '0'] ∨ trimmed = [] then ['0'] else trimmed

/-- A field of an object, from the text of its value. -/
def canonicalField (key : Str) (text : Option (List Char)) : Option (List Char) :=
  text.bind fun t ↦ if strEncodable key then some (strText key ++ ':' :: t) else none

/-- `_canonical_json`, of a value whose keys are in order -/
def canonicalText : Json F → Option (List Char) :=
  Json.fold
    (fun
      | .null => some "null".toList
      | .bool b => some (if b then "true" else "false").toList
      | .int n => if intEncodable n then some (intText n) else none
      | .float x =>
        if PyFloat.isFinite x then (E.decimal (((PyFloat.repr x).text).map .scalar)).map decimalText
        else none
      | .str s => if strEncodable s then some (strText s) else none
      | _ => none)
    (fun texts ↦ (texts.mapM id).map fun ts ↦ '[' :: [','].intercalate ts ++ [']'])
    fun kvs texts ↦ (((kvs.map Prod.fst).zipWith canonicalField texts).mapM id).map fun ts ↦
      '{' :: [','].intercalate ts ++ ['}']

/-- The values of the normalized body: those of the payload, and decimals. -/
inductive BodyValue (F : Type) where
  | json (v : Json F)
  | decimal (rendered : List Char)

/-- The fields that hold an amount. -/
def costFields : List Str :=
  [.lit "separately_billed_tool_cost_usd", .lit "producer_estimated_cost_usd",
    .lit "provider_reported_cost_usd"]

def isNull : Json F → Bool
  | .null => true
  | _ => false

/-- What becomes of an entry in the normalized body. -/
def normalizedEntry (entry : Str × Json F) : Option (Str × BodyValue F) :=
  if entry.1 ∈ costFields ∧ isNull entry.2 = false then
    (E.decimal (entry.2.toStr E.interp)).map fun rendered ↦ (entry.1, .decimal rendered)
  else some (entry.1, .json entry.2)

def normalizedUsageBody (event : Dict Str (Json F)) : Option (Dict Str (BodyValue F)) :=
  let body := event.pop (.lit "source_payload_sha256")
  let body :=
    if (body.lookup (.lit "selection_provenance")).all isNull then
      body.pop (.lit "selection_provenance")
    else body
  body.mapM (normalizedEntry E)

def canonicalEntry (entry : Str × BodyValue F) : Option (List Char) :=
  match entry.2 with
  | .json v => canonicalField entry.1 (canonicalText E v.sortKeys)
  | .decimal rendered => canonicalField entry.1 (some (decimalText rendered))

/-- `_canonical_json`, of a normalized body -/
def canonicalJson (body : Dict Str (BodyValue F)) : Option (List Char) :=
  ((body.insertionSort fun a b ↦ a.1.le b.1).mapM (canonicalEntry E)).map fun ts ↦
    '{' :: [','].intercalate ts ++ ['}']

/-- `canonical_usage_payload_sha256` -/
def canonicalUsagePayloadSha256 (event : Dict Str (Json F)) : Option Str := do
  let body ← normalizedUsageBody E event
  let text ← canonicalJson E body
  some (.lit "sha256:" ++ E.sha256 text)

/-! ## The evidence -/

/-- The columns that say what was enqueued. -/
structure Evidence where
  eventId : Str
  payloadSha256 : Str
  payloadJson : List Char
  environment : Str
  sourceProduct : Str
  occurredAt : Str
  requestId : Str
  sessionId : Str
deriving DecidableEq

def payloadJson (payload : Json F) : Option (List Char) :=
  if payload.sortKeys.encodable then some payload.sortKeys.text else none

/-- `str(payload.get(key) or "").strip()` -/
def field (event : Dict Str (Json F)) (key : String) : Str :=
  (strOr E.interp event (.lit key) []).strip

/-- `_source_time_text` -/
def sourceTimeText (value : Json F) : Except OutboxError Str :=
  match E.sourceTime (value.toStr E.interp) with
  | .invalid => .error (.value "commercial usage occurred_at is invalid")
  | .naive => .error (.value "commercial usage occurred_at must be timezone-aware")
  | .aware utc => .ok utc

/-- What `enqueue_batch` makes of a payload. -/
def prepare : Json F → Except OutboxError Evidence
  | .dict event => do
    let eventId := field E event "source_event_id"
    let digest := field E event "source_payload_sha256"
    require (eventId ≠ []) (.value "commercial outbox payload identity or digest is invalid")
    let expected ← requireSome (canonicalUsagePayloadSha256 E event) .rendering
    require (digest = expected) (.value "commercial outbox payload identity or digest is invalid")
    let occurredAt ← sourceTimeText E ((event.lookup (.lit "occurred_at")).getD .null)
    let environment := field E event "environment"
    let sourceProduct := field E event "source_product"
    let requestId := field E event "request_id"
    let sessionId := field E event "session_id"
    require (environment ≠ [] ∧ sourceProduct ≠ [] ∧ occurredAt ≠ [] ∧ requestId ≠ [] ∧
      sessionId ≠ [])
      (.value "commercial outbox payload reconciliation identity is invalid")
    let text ← requireSome (payloadJson (.dict event)) .rendering
    .ok ⟨eventId, digest, text, environment, sourceProduct, occurredAt, requestId, sessionId⟩
  | _ => .error (.value "commercial outbox payload must be an object")

/-- The loop of `enqueue_batch` over the payloads, with the digests it has seen. -/
def prepareBatch : List (Json F) → Dict Str Str → Except OutboxError (List Evidence)
  | [], _ => .ok []
  | payload :: rest, seen => do
    let e ← prepare E payload
    require (∀ previous ∈ seen.lookup e.eventId, previous = e.payloadSha256)
      (.conflict "conflicting commercial usage event inside batch" e.eventId)
    let prepared ← prepareBatch rest (seen.set e.eventId e.payloadSha256)
    .ok (e :: prepared)

/-- `_queued_payload_schema_version`.  The rows hold texts that `payloadJson` has rendered, in which
no constant such as `NaN` occurs. -/
def queuedPayloadSchemaVersion (payloadJson : List Char) : Option (Json F) :=
  let hooks : LoadsHooks F Unit :=
    ⟨(), fun pairs ↦ .ok (.dict (Dict.update [] pairs)), fun _ ↦ (), fun _ ↦ none⟩
  match loads hooks payloadJson with
  | .ok (.dict kvs) => kvs.lookup (.lit "schema_version")
  | _ => none

end AgentGateway.UsageOutbox
