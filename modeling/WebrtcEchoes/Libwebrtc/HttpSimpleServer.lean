/-
`HttpSimpleServer::OnHttpRequest`.

libevent calls it for the three methods the server allows and ignores what it returns,
so what it does to a request is the replies it sends and the exception it lets out.
-/
import WebrtcEchoes.Libwebrtc.PcFactory

namespace WebrtcEchoes.Libwebrtc

/-- The methods given to `evhttp_set_allowed_methods`. -/
inductive Method
  | get | post | options
  deriving DecidableEq, Repr

structure Request where
  type : Method
  body : Bytes
  deriving DecidableEq, Repr

/-- One `evhttp_send_reply`, with the headers added before it. -/
structure Reply where
  code : Nat
  reason : String
  headers : List (String × String)
  /-- The text in the response buffer; `none` for no buffer. -/
  body : Option String
  deriving DecidableEq, Repr

/-- What one call of the handler did. -/
structure Handled where
  replies : List Reply
  thrown : Option Exn
  deriving DecidableEq, Repr

/-- The conversion of a `size_t` to an `int`. -/
def toInt (len : Nat) : Int := Int.bmod len 0x100000000

/-- What `"%s"` prints of a string: its bytes up to the first NUL. -/
def cStr (text : String) : String := String.ofList (text.toList.takeWhile (· ≠ '\x00'))

/-- `Access-Control-Allow-Origin: *` -/
def allowOrigin : String × String := ("Access-Control-Allow-Origin", "*")

def badRequest (text : String) : Reply :=
  { code := 400, reason := "Bad Request", headers := [allowOrigin], body := some text }

/-- What the handler makes of a call of `CreatePeerConnection`, which it does not guard. -/
def respond : PcFactory × Except Exn String → Option PcFactory × Handled
  | (factory, .error exn) => (some factory, ⟨[], some exn⟩)
  | (factory, .ok answer) =>
      (some factory,
        { replies :=
            [{ code := 200
               reason := "OK"
               headers := [allowOrigin, ("Content-type", "application/json")]
               body := some (cStr answer) }]
          thrown := none })

/-- `HttpSimpleServer::OnHttpRequest`, with the factory the server has, if any. -/
def onHttpRequest (lib : Library) (pcFactory : Option PcFactory) (req : Request) :
    Option PcFactory × Handled :=
  if req.type = .options then
    (pcFactory,
      { replies :=
          [{ code := 200
             reason := "OK"
             headers :=
               [allowOrigin, ("Access-Control-Allow-Methods", "POST"),
                 ("Access-Control-Allow-Headers", "content-type")]
             body := none }]
        thrown := none })
  else if req.body.length = 0 then
    (pcFactory, ⟨[badRequest "Request was missing the SDP offer."], none⟩)
  else
    match pcFactory with
    | none => (none, ⟨[badRequest "No handler"], none⟩)
    | some factory => respond (createPeerConnection lib factory req.body (toInt req.body.length))

end WebrtcEchoes.Libwebrtc
