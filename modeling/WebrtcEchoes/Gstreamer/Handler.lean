/-
`on_http_request_cb` of `gstreamer-webrtc-echo.c`, from the request to its reply.

The schedules behind `set_offer` are those of `Gstreamer/Server.lean`; here the promise of
the handler is only what it ends with.  A failed `g_assert` ends the process, and the value
of a local that was never written is not known to anybody, so the handler has no meaning
from the moment on that it reads one.

The launch description names the element that `gst_bin_get_by_name` looks for, so the
assertion on its result cannot fail, and allocations are taken to succeed.  What the handler
prints is left out.
-/
import WebrtcEchoes.Gstreamer.Server

namespace WebrtcEchoes.Gstreamer.Handler

open Server

abbrev Bytes := List UInt8

def ascii (text : String) : Bytes := text.toList.map fun c => UInt8.ofNat c.toNat

/-- A buffer, as the functions for C strings see it. -/
def cString (buffer : Bytes) : Bytes := buffer.takeWhile (· ≠ 0)

/-- The methods given to `evhttp_set_allowed_methods`. -/
inductive Method
  | get | post | options
  deriving DecidableEq, Repr

structure Request where
  type : Method
  body : Bytes
  deriving DecidableEq, Repr

/-- One `evhttp_send_reply`, with the headers added before it. -/
structure HttpReply where
  code : Nat
  reason : String
  headers : List (String × String)
  /-- The content of the response buffer; `none` for no buffer. -/
  body : Option Bytes
  deriving DecidableEq, Repr

/-- What one call of the handler did. -/
structure Handled where
  replies : List HttpReply
  process : Process
  deriving DecidableEq, Repr

/-! ### cJSON -/

/-- An item of a parsed text.  Only the members of an object have a name. -/
inductive CJson
  | string (valuestring : Bytes)
  | object (members : List (Bytes × CJson))
  | array (items : List CJson)
  /-- A number, `true`, `false` or `null`. -/
  | other

/-- The loop of `get_object_item`. -/
def getMember (name : Bytes) : List (Bytes × CJson) → Option CJson
  | [] => none
  | (string, item) :: rest => if string = name then some item else getMember name rest

/-- `cJSON_GetObjectItemCaseSensitive`, which also takes a `NULL` from `cJSON_Parse`. -/
def getObjectItem (name : Bytes) : Option CJson → Option CJson
  | some (.object members) => getMember name members
  | _ => none

def hexDigit (n : UInt8) : UInt8 := if n < 10 then 48 + n else 87 + n

/-- The escape of one byte in `print_string_ptr`. -/
def escape (b : UInt8) : Bytes :=
  if b = 92 then ascii "\\\\"
  else if b = 34 then ascii "\\\""
  else if 31 < b then [b]
  else if b = 8 then ascii "\\b"
  else if b = 12 then ascii "\\f"
  else if b = 10 then ascii "\\n"
  else if b = 13 then ascii "\\r"
  else if b = 9 then ascii "\\t"
  else ascii "\\u00" ++ [hexDigit (b / 16), hexDigit (b % 16)]

/-- `print_string_ptr` -/
def printString (text : Bytes) : Bytes := [34] ++ (cString text).flatMap escape ++ [34]

/-- `cJSON_Print` of the object with the members `type` and `sdp`. -/
def printAnswer (text : Bytes) : Bytes :=
  ascii "\x7b\n\t\"type\":\t\"answer\",\n\t\"sdp\":\t" ++ printString text ++ ascii "\n\x7d"

/-! ### The handler -/

/-- What the libraries do with a request. -/
structure Library (δ : Type) where
  /-- `cJSON_Parse` -/
  parse : Bytes → Option CJson
  /-- `gst_parse_launch` reports no error. -/
  parseLaunch : Bool
  /-- `gst_element_set_state` is not `GST_STATE_CHANGE_FAILURE`. -/
  setState : Bool
  /-- `gst_sdp_message_parse_buffer` is `GST_SDP_OK`. -/
  parseBuffer : Bytes → Bool
  /-- What the promise of the handler's `create-answer` ends with, for each offer. -/
  createAnswer : Bytes → Reply δ
  /-- `gst_sdp_message_as_text` -/
  asText : δ → Bytes

variable {δ : Type}

/-- `create_webrtc` does not return `NULL`. -/
def createWebrtc (lib : Library δ) : Bool := lib.parseLaunch && lib.setState

/-- A pointer among the locals of the handler. -/
inductive Local (α : Type)
  | unwritten
  | null
  | value (x : α)
  deriving DecidableEq, Repr

/-- `gst_structure_get` leaves its output variable untouched when the field is missing. -/
def structureGet (reply : Reply δ) (answer : Local δ) : Local δ :=
  match reply with
  | .answer a => .value a
  | _ => answer

/-- `Access-Control-Allow-Origin: *` -/
def allowOrigin : String × String := ("Access-Control-Allow-Origin", "*")

def replyText (code : Nat) (reason text : String) : HttpReply :=
  { code := code, reason := reason, headers := [allowOrigin], body := some (ascii text) }

def badRequest (text : String) : HttpReply := replyText 400 "Bad Request" text

def serverError (text : String) : HttpReply := replyText 501 "Internal Server Error" text

def answerReply (lib : Library δ) (answer : δ) : HttpReply :=
  { code := 200
    reason := "OK"
    headers := [allowOrigin, ("Content-type", "application/json")]
    body := some (printAnswer (lib.asText answer)) }

/-- `if (answer != NULL)`, and its two branches. -/
def sendAnswer (lib : Library δ) : Local δ → Handled
  | .unwritten => ⟨[], .undefined⟩
  | .null => ⟨[serverError "Failed to get webrtc SDP answer."], .running⟩
  | .value answer => ⟨[answerReply lib answer], .running⟩

/-- What follows `gst_promise_wait`; no initial value is given to `answer`. -/
def afterWait (lib : Library δ) (reply : Reply δ) : Handled :=
  match reply with
  | .notReplied => ⟨[serverError "Timed out waiting for webrtc SDP answer."], .running⟩
  | reply => sendAnswer lib (structureGet reply .unwritten)

/-- The branch for an offer with an SDP text. -/
def handleSdp (lib : Library δ) (sdp : Bytes) : Handled :=
  if createWebrtc lib then
    -- `g_assert_cmphex` of `set_offer`
    if lib.parseBuffer sdp then afterWait lib (lib.createAnswer sdp) else ⟨[], .aborted⟩
  else ⟨[serverError "Failed to initialise webrtc peer connection."], .running⟩

def onHttpRequest (lib : Library δ) (req : Request) : Handled :=
  if req.type = .options then
    { replies :=
        [{ code := 200
           reason := "OK"
           headers :=
             [allowOrigin, ("Access-Control-Allow-Methods", "POST"),
               ("Access-Control-Allow-Headers", "content-type")]
           body := none }]
      process := .running }
  else if 0 < req.body.length then
    match getObjectItem (ascii "sdp") (lib.parse (cString req.body)) with
    | some (.string valuestring) => handleSdp lib valuestring
    | _ => ⟨[badRequest "Could not parse SDP offer."], .running⟩
  else ⟨[badRequest "Request was missing the SDP offer."], .running⟩

end WebrtcEchoes.Gstreamer.Handler
