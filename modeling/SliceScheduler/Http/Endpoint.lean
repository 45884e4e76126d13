import SliceScheduler.Http.Answer
import SliceScheduler.Http.MediaType
import SliceScheduler.Json.Decode
/-!
# Requests to the management interface

1. `Endpoint` lists what can be asked for;
2. `Endpoint.ofRequest` reads it from the method, the path and the body of a request, or answers the
   request at once.

A path that is not known is answered with 404, a method that a path does not have with 405. A body
has to be JSON, by its content type (else 415), in its text (else 400) and in its shape (else 422).
-/
namespace SliceScheduler

open Json

/-- A request as it arrives. -/
structure HttpRequest where
  method : String
  /-- The path, perhaps with a scheme and a host in front and a query or a fragment behind. -/
  target : String
  contentType : Option String
  body : String

/-- What is asked for. -/
inductive Endpoint where
  | health
  | state
  | pause
  | resume
  | pointer
  /-- The slice that contains a number of milliseconds. -/
  | slice (ms : Int)
  | jobs
  | job (id : String)
  | deleteTenant (tenant : String)
  | deleteMetric (tenant type name : String)
  | compress (target : Int) (size : Option String)

namespace Endpoint

/-! ## Paths -/

/-- Cuts characters at slashes. -/
def cutSegments : List Char → List (List Char)
  | [] => [[]]
  | '/' :: cs => [] :: cutSegments cs
  | c :: cs =>
    match cutSegments cs with
    | [] => [[c]]
    | s :: rest => (c :: s) :: rest

/-- The mark of a query or of a fragment, which end a path. -/
def endsPath (c : Char) : Bool := c = '?' || c = '#'

/-- A target without a scheme and a host, which two slashes part. -/
def dropHost : List Char → List Char
  | '/' :: cs => '/' :: cs
  | cs => ((cs.dropWhile (· ≠ '/')).drop 2).dropWhile fun c => c ≠ '/' && !endsPath c

/-- The segments of the path of a target, after its first slash. -/
def segments (target : String) : List String :=
  match (dropHost target.toList).takeWhile (!endsPath ·) with
  | '/' :: cs => (cutSegments cs).map String.ofList
  | _ => []

/-- The bytes of a segment, with two digits after a percent sign for a byte. A percent sign without
digits stands for itself. -/
def percentBytes : List Char → List UInt8
  | '%' :: a :: b :: cs =>
    match Text.hexValue? a, Text.hexValue? b with
    | some x, some y => (16 * x + y).toUInt8 :: percentBytes cs
    | _, _ => '%'.toNat.toUInt8 :: percentBytes (a :: b :: cs)
  | c :: cs => (String.singleton c).toUTF8.toList ++ percentBytes cs
  | [] => []
termination_by cs => cs.length

/-- The text of a segment, if its bytes are one. -/
def decodeSegment? (s : String) : Option String :=
  String.fromUTF8? ⟨(percentBytes s.toList).toArray⟩

/-! ## Bodies -/

/-- The body of a request is JSON, by its content type. -/
def hasJson (r : HttpRequest) : Bool := (r.contentType.bind MediaType.ofText?).any MediaType.isJson

/-- Reads a body, which is a record with fields of the given names, or answers the request. -/
def readBody {α : Type} (r : HttpRequest) (names : List String) (read : Json → Decoded α) :
    Except HttpAnswer α :=
  if !hasJson r then .error (.bare 415)
  else
    let (v, atEnd) := Json.readRecord names r.body
    match read v with
    | .error .mismatch => .error (.bare 422)
    | .error .unreadable => .error (.bare 400)
    | .ok a => if atEnd then .ok a else .error (.bare 400)

/-- Reads a body with texts. -/
def readTexts (r : HttpRequest) (names : List String) : Except HttpAnswer (List String) :=
  readBody r names fun v => do
    let found ← fields names (fun _ v => discard v.asString) v
    names.mapM fun name => required found name asString

/-- Reads a whole number of a signed 64-bit word. -/
def readInt64 : Json → Decoded Int := asIntBetween Text.minInt64 Text.maxInt64

/-- The names of the fields of a compression. -/
def compressFields : List String := ["timestamp", "block_size"]

/-- Reads a target time and a size, which an object may leave out. -/
def readCompress (v : Json) : Decoded (Int × Option String) := do
  let check (name : String) (v : Json) : Decoded Unit :=
    match name with
    | "timestamp" => discard (readInt64 v)
    | _ => discard (asOption asString v)
  let found ← fields compressFields check v
  let size := match v with
    | arr _ => required found "block_size" (asOption asString)
    | _ => withDefault found "block_size" none (asOption asString)
  return (← required found "timestamp" readInt64, ← size)

/-! ## Routes -/

/-- A place in the interface, with the method that it has. -/
inductive Place where
  | read (endpoint : HttpRequest → Except HttpAnswer Endpoint)
  | write (endpoint : HttpRequest → Except HttpAnswer Endpoint)

/-- The slice of a segment. -/
def readSlice (segment : String) : Except HttpAnswer Endpoint :=
  match (decodeSegment? segment).bind fun s => Text.int64? s.toList with
  | some ms => .ok (slice ms)
  | none => .error (.bare 400)

/-- The job of a segment. -/
def readJob (segment : String) : Except HttpAnswer Endpoint :=
  match decodeSegment? segment with
  | some id => .ok (job id)
  | none => .error (.bare 400)

/-- The deletion of a tenant that a body asks for. -/
def readDeleteTenant (r : HttpRequest) : Except HttpAnswer Endpoint := do
  match ← readTexts r ["tenant_id"] with
  | [tenant] => return deleteTenant tenant
  | _ => .error (.bare 422)

/-- The deletion of a metric that a body asks for. -/
def readDeleteMetric (r : HttpRequest) : Except HttpAnswer Endpoint := do
  match ← readTexts r ["tenant_id", "metric_type", "metric_name"] with
  | [tenant, type, name] => return deleteMetric tenant type name
  | _ => .error (.bare 422)

/-- The place of a path. -/
def place? : List String → Option Place
  | ["api", "health"] => some (.read fun _ => .ok health)
  | ["api", "scheduler", "state"] => some (.read fun _ => .ok state)
  | ["api", "scheduler", "pause"] => some (.write fun _ => .ok pause)
  | ["api", "scheduler", "resume"] => some (.write fun _ => .ok resume)
  | ["api", "scheduler", "active-queue"] => some (.read fun _ => .ok pointer)
  | ["api", "slices", ms] => if ms.isEmpty then none else some (.read fun _ => readSlice ms)
  | ["api", "jobs"] => some (.read fun _ => .ok jobs)
  | ["api", "jobs", "delete-tenant"] => some (.write readDeleteTenant)
  | ["api", "jobs", "delete-metric"] => some (.write readDeleteMetric)
  | ["api", "jobs", "compress"] =>
    some (.write fun r => do
      let (target, size) ← readBody r compressFields readCompress
      return compress target size)
  | ["api", "jobs", id] => if id.isEmpty then none else some (.read fun _ => readJob id)
  | _ => none

/-- What a request asks for, or its answer. Asking which methods there are is always answered. -/
def ofRequest (r : HttpRequest) : Except HttpAnswer Endpoint :=
  if r.method = "OPTIONS" then .error (.bare 200)
  else
    match place? (segments r.target) with
    | none => .error (.bare 404)
    | some (.read endpoint) =>
      if r.method = "GET" ∨ r.method = "HEAD" then endpoint r else .error (.bare 405)
    | some (.write endpoint) => if r.method = "POST" then endpoint r else .error (.bare 405)

end Endpoint

end SliceScheduler
