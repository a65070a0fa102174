import BatRewind.Session.Model

/-!
# Batches as JSON

`encode` and `decode` are `json.Marshal` and `json.Unmarshal` of an `IngestRequest`, by the struct
tags. A payload is a JSON value, so texts that differ only in layout or escapes are one payload,
and an event's data is kept as it is. A key may come more than once: a field is then set again, and
the events are decoded into the cells of the slice that is there.

* `decodeEvents`, `decodeCells`: the elements of a slice, with the cells that are used again.
* **`decode_encode`**: what `json.Marshal` wrote decodes to the batch.
-/

namespace BatRewind

open Encoding

/-! ## Encoding -/

/-- `json.Marshal` of an event. -/
def encodeEvent (e : RawEvent) : Json :=
  .obj [("type", .int e.type), ("data", e.data), ("timestamp", .int e.timestamp)]

/-- `json.Marshal` of device metadata; a nil pointer is `null`. -/
def encodeClient : Option (ClientMeta String) → Json
  | none => .null
  | some c => .obj [
      ("screen_width", .int c.screenWidth),
      ("screen_height", .int c.screenHeight),
      ("viewport_width", .int c.viewportWidth),
      ("viewport_height", .int c.viewportHeight),
      ("device_pixel_ratio", ofFloat c.devicePixelRatio),
      ("language", .str c.language),
      ("timezone", .str c.timezone),
      ("user_agent", .str c.userAgent)]

/-- `json.Marshal` of a batch. -/
def encode (req : IngestRequest) : Json :=
  .obj [
    ("session_id", .str req.sessionID),
    ("bat_session_id", .str req.batSessionID),
    ("identifier", .str req.identifier),
    ("user_email", .str req.userEmail),
    ("user_name", .str req.userName),
    ("start_url", .str req.startURL),
    ("environment", .str req.environment),
    ("service_name", .str req.serviceName),
    ("trigger", .str req.trigger),
    ("share_token", .str req.shareToken),
    ("client", encodeClient req.client),
    ("events", .arr (req.events.map encodeEvent))]

/-! ## Decoding -/

/-- The tags of `RawEvent`. -/
def eventTags : List String := ["type", "data", "timestamp"]

/-- Set a field of an event. A `json.RawMessage` takes any value, `null` included. -/
def setEventField (tag : String) (v : Json) (e : RawEvent) : Except String RawEvent :=
  match tag with
  | "type" => (intoInt "RawEvent.events.type" "int" v e.type).map fun n => { e with type := n }
  | "data" => .ok { e with data := v }
  | "timestamp" => (intoInt "RawEvent.events.timestamp" "int64" v e.timestamp).map
      fun n => { e with timestamp := n }
  | _ => .ok e

/-- The zero value of `RawEvent`. -/
def zeroEvent : RawEvent := ⟨0, .null, 0⟩

/-- `json.Unmarshal` into an event: what the object does not name stays. -/
def decodeEvent : Json → RawEvent → Except String RawEvent
  | .null, old => .ok old
  | .obj kvs, old => decodeFields eventTags setEventField kvs old
  | v, _ => .error (typeError v "IngestRequest.events" "session.RawEvent")

/-- The tags of `ClientMeta`. -/
def clientTags : List String :=
  ["screen_width", "screen_height", "viewport_width", "viewport_height", "device_pixel_ratio",
    "language", "timezone", "user_agent"]

/-- Set a field of the device metadata. -/
def setClientField (tag : String) (v : Json) (c : ClientMeta String) :
    Except String (ClientMeta String) :=
  match tag with
  | "screen_width" => (intoInt "ClientMeta.client.screen_width" "int" v c.screenWidth).map
      fun n => { c with screenWidth := n }
  | "screen_height" => (intoInt "ClientMeta.client.screen_height" "int" v c.screenHeight).map
      fun n => { c with screenHeight := n }
  | "viewport_width" => (intoInt "ClientMeta.client.viewport_width" "int" v c.viewportWidth).map
      fun n => { c with viewportWidth := n }
  | "viewport_height" => (intoInt "ClientMeta.client.viewport_height" "int" v c.viewportHeight).map
      fun n => { c with viewportHeight := n }
  | "device_pixel_ratio" => (intoFloat "ClientMeta.client.device_pixel_ratio" v
      c.devicePixelRatio).map fun q => { c with devicePixelRatio := q }
  | "language" => (intoString "ClientMeta.client.language" v c.language).map
      fun s => { c with language := s }
  | "timezone" => (intoString "ClientMeta.client.timezone" v c.timezone).map
      fun s => { c with timezone := s }
  | "user_agent" => (intoString "ClientMeta.client.user_agent" v c.userAgent).map
      fun s => { c with userAgent := s }
  | _ => .ok c

/-- The zero value of `ClientMeta`. -/
def zeroClient : ClientMeta String := ⟨0, 0, 0, 0, 0, "", "", ""⟩

/-- `json.Unmarshal` into the pointer field `client`. -/
def decodeClient : Json → Option (ClientMeta String) → Except String (Option (ClientMeta String))
  | .null, _ => .ok none
  | .obj kvs, old => (decodeFields clientTags setClientField kvs (old.getD zeroClient)).map some
  | v, _ => .error (typeError v "IngestRequest.client" "session.ClientMeta")

/-- The elements of an array, each decoded into the cell of the slice that stands there. -/
def decodeCells : List Json → List RawEvent → Except String (List RawEvent)
  | [], _ => .ok []
  | x :: xs, cells => do
    let e ← decodeEvent x (cells.headD zeroEvent)
    let es ← decodeCells xs cells.tail
    return e :: es

/-- A slice field: its elements, and the cells of its array behind them. -/
structure Cells where
  elems : List RawEvent
  spare : List RawEvent

/-- `json.Unmarshal` into the slice field `events`. The cells that the field has are used again,
with what they hold; `null` and the empty array make a new slice. -/
def decodeEvents : Json → Cells → Except String Cells
  | .null, _ | .arr [], _ => .ok ⟨[], []⟩
  | .arr xs, cells => (decodeCells xs (cells.elems ++ cells.spare)).map fun es =>
      ⟨es, (cells.elems ++ cells.spare).drop es.length⟩
  | v, _ => .error (typeError v "IngestRequest.events" "[]session.RawEvent")

/-- The tags of `IngestRequest`. -/
def requestTags : List String :=
  ["session_id", "bat_session_id", "identifier", "user_email", "user_name", "start_url",
    "environment", "service_name", "trigger", "share_token", "client", "events"]

/-- Set a field of a batch other than `events`. -/
def setRequestField (tag : String) (v : Json) (req : IngestRequest) : Except String IngestRequest :=
  match tag with
  | "session_id" => (intoString "IngestRequest.session_id" v req.sessionID).map
      fun s => { req with sessionID := s }
  | "bat_session_id" => (intoString "IngestRequest.bat_session_id" v req.batSessionID).map
      fun s => { req with batSessionID := s }
  | "identifier" => (intoString "IngestRequest.identifier" v req.identifier).map
      fun s => { req with identifier := s }
  | "user_email" => (intoString "IngestRequest.user_email" v req.userEmail).map
      fun s => { req with userEmail := s }
  | "user_name" => (intoString "IngestRequest.user_name" v req.userName).map
      fun s => { req with userName := s }
  | "start_url" => (intoString "IngestRequest.start_url" v req.startURL).map
      fun s => { req with startURL := s }
  | "environment" => (intoString "IngestRequest.environment" v req.environment).map
      fun s => { req with environment := s }
  | "service_name" => (intoString "IngestRequest.service_name" v req.serviceName).map
      fun s => { req with serviceName := s }
  | "trigger" => (intoString "IngestRequest.trigger" v req.trigger).map
      fun s => { req with trigger := s }
  | "share_token" => (intoString "IngestRequest.share_token" v req.shareToken).map
      fun s => { req with shareToken := s }
  | "client" => (decodeClient v req.client).map fun c => { req with client := c }
  | _ => .ok req

/-- A batch that is being decoded, with the cells behind its events. -/
structure Unmarshalling where
  req : IngestRequest
  spare : List RawEvent

/-- Set a field of a batch. A key may come again. -/
def setField (tag : String) (v : Json) (b : Unmarshalling) : Except String Unmarshalling :=
  if tag = "events" then
    (decodeEvents v ⟨b.req.events, b.spare⟩).map fun cells =>
      ⟨{ b.req with events := cells.elems }, cells.spare⟩
  else (setRequestField tag v b.req).map fun req => ⟨req, b.spare⟩

/-- The zero value of `IngestRequest`. -/
def zeroRequest : IngestRequest := ⟨"", "", "", "", "", "", "", "", "", "", none, []⟩

/-- `json.Unmarshal` into a batch. -/
def decode : Json → Except String IngestRequest
  | .null => .ok zeroRequest
  | .obj kvs =>
    (decodeFields requestTags setField kvs ⟨zeroRequest, []⟩).map Unmarshalling.req
  | v => .error (typeError v "IngestRequest" "session.IngestRequest")

/-! ## Round trip -/

theorem decodeEvent_encodeEvent (e old : RawEvent) : decodeEvent (encodeEvent e) old = .ok e := by
  simp only [encodeEvent, decodeEvent]
  rw [decodeFields_cons (by decide) rfl, decodeFields_cons (by decide) rfl,
    decodeFields_cons (by decide) rfl]
  rfl

theorem decodeCells_encodeEvent (es cells : List RawEvent) :
    decodeCells (es.map encodeEvent) cells = .ok es := by
  induction es generalizing cells with
  | nil => rfl
  | cons e es ih =>
    rw [List.map_cons, decodeCells, decodeEvent_encodeEvent, ih]
    rfl

theorem decodeEvents_encodeEvent (es : List RawEvent) :
    decodeEvents (.arr (es.map encodeEvent)) ⟨[], []⟩ = .ok ⟨es, []⟩ := by
  cases es with
  | nil => rfl
  | cons e es =>
    have hcells := decodeCells_encodeEvent (e :: es) []
    rw [List.map_cons] at hcells ⊢
    rw [decodeEvents, List.append_nil, hcells]
    · rfl
    · exact List.cons_ne_nil _ _

theorem decodeClient_encodeClient (c : Option (ClientMeta String)) :
    decodeClient (encodeClient c) none = .ok c := by
  cases c with
  | none => rfl
  | some c =>
    simp only [encodeClient, decodeClient, Option.getD_none]
    rw [decodeFields_cons (by decide) rfl, decodeFields_cons (by decide) rfl,
      decodeFields_cons (by decide) rfl, decodeFields_cons (by decide) rfl,
      decodeFields_cons (by decide)
        (by simp only [setClientField]; rw [intoFloat_ofFloat]; rfl),
      decodeFields_cons (by decide) rfl, decodeFields_cons (by decide) rfl,
      decodeFields_cons (by decide) rfl]
    rfl

/-- **Round trip.** What `json.Marshal` wrote decodes to the batch. -/
theorem decode_encode (req : IngestRequest) : decode (encode req) = .ok req := by
  -- the two fields that are no plain values, whatever was read before them
  have hclient : ∀ old : IngestRequest, old.client = none →
      setField "client" (encodeClient req.client) ⟨old, []⟩ =
        .ok ⟨{ old with client := req.client }, []⟩ := by
    intro old hold
    rw [setField, if_neg (by decide)]
    simp only [setRequestField, hold, decodeClient_encodeClient]
    rfl
  have hevents : ∀ old : IngestRequest, old.events = [] →
      setField "events" (.arr (req.events.map encodeEvent)) ⟨old, []⟩ =
        .ok ⟨{ old with events := req.events }, []⟩ := by
    intro old hold
    rw [setField, if_pos rfl, hold, decodeEvents_encodeEvent]
    rfl
  simp only [encode, decode]
  rw [decodeFields_cons (by decide) rfl, decodeFields_cons (by decide) rfl,
    decodeFields_cons (by decide) rfl, decodeFields_cons (by decide) rfl,
    decodeFields_cons (by decide) rfl, decodeFields_cons (by decide) rfl,
    decodeFields_cons (by decide) rfl, decodeFields_cons (by decide) rfl,
    decodeFields_cons (by decide) rfl, decodeFields_cons (by decide) rfl,
    decodeFields_cons (by decide) (hclient _ rfl), decodeFields_cons (by decide) (hevents _ rfl)]
  rfl

/-- A second `events` key decodes into the events of the first, and a third into the cells that the
second left over: only what it names is replaced. -/
example : decode (.obj [("events", .arr [.obj [("type", .int 4), ("timestamp", .int 7)], .obj
      [("type", .int 3)]]), ("events", .arr [.obj [("type", .int 2)]]),
      ("Events", .arr [.null, .obj [("timestamp", .int 9)]])]) =
    .ok { zeroRequest with events := [⟨2, .null, 7⟩, ⟨3, .null, 9⟩] } := rfl

/-- A type of more than 64 bits is refused. -/
example : decode (.obj [("events", .arr [.obj [("type", .dec (2 ^ 63))]])]) = .error
    "json: cannot unmarshal number into Go struct field RawEvent.events.type of type int" := rfl

end BatRewind
