/-
`OfferAsync` of the kurento server, `kurento/Program.cs`.

The action makes one JSON-RPC call after the other, and hands what a call returns on to
later ones.  A call that Kurento answers with an error throws a
`RemoteInvocationException`, which the action catches; any other failure of a call, and
the use of a result that is null, throws something that it does not catch.
-/
import WebrtcEchoes.EmbedIO

namespace WebrtcEchoes.Kurento

open EmbedIO

structure KurentoResult where
  value : Option String
  sessionId : Option String
  deriving DecidableEq, Repr

inductive Exn
  | remoteInvocation
  | other
  deriving DecidableEq, Repr

/-- The calls, with what is passed in them. -/
inductive Rpc
  | ping (interval : Nat)
  | createMediaPipeline
  | createWebRtcEndpoint (mediaPipeline sessionId : Option String)
  | connect (object sink sessionId : Option String)
  | subscribe (object : Option String) (type : String) (sessionId : Option String)
  | processOffer (object offer sessionId : Option String)
  | gatherCandidates (object sessionId : Option String)
  deriving DecidableEq, Repr

/-- `KEEP_ALIVE_INTERVAL_MS` -/
def keepAliveInterval : Nat := 240000

/-- The locals of the action. -/
structure Locals where
  mediaPipeline : Option String
  sessionID : Option String
  webRTCEndPointID : Option String
  /-- `processOfferResult.value` -/
  answer : Option String
  deriving DecidableEq, Repr

def Locals.start : Locals := ⟨none, none, none, none⟩

/-- One `InvokeWithParameterObjectAsync<KurentoResult>`. -/
structure Invocation where
  request : Locals → Rpc
  /-- What is done with the members of the result, if they are looked at. -/
  store : Option (KurentoResult → Locals → Locals)

/-- What Kurento answers to a call; the result may be null. -/
abbrev Invoke := Rpc → Except Exn (Option KurentoResult)

def Invocation.run (i : Invocation) (invoke : Invoke) (l : Locals) : Except Exn Locals :=
  match invoke (i.request l) with
  | .error exn => .error exn
  | .ok result =>
      match i.store, result with
      | none, _ => .ok l
      | some _, none => .error .other
      | some store, some r => .ok (store r l)

def invokeAll (invoke : Invoke) : List Invocation → Locals → Except Exn Locals
  | [], l => .ok l
  | i :: rest, l =>
      match i.run invoke l with
      | .error exn => .error exn
      | .ok l' => invokeAll invoke rest l'

/-- The calls up to the answer. -/
def beforeAnswer (offer : RTCSessionDescriptionInit) : List Invocation :=
  [⟨fun _ => .ping keepAliveInterval, some fun _ l => l⟩,
    ⟨fun _ => .createMediaPipeline,
      some fun r l => { l with mediaPipeline := r.value, sessionID := r.sessionId }⟩,
    ⟨fun l => .createWebRtcEndpoint l.mediaPipeline l.sessionID,
      some fun r l => { l with webRTCEndPointID := r.value }⟩,
    -- no result for this operation
    ⟨fun l => .connect l.webRTCEndPointID l.webRTCEndPointID l.sessionID, none⟩,
    ⟨fun l => .subscribe l.webRTCEndPointID "IceCandidateFound" l.sessionID, some fun _ l => l⟩,
    ⟨fun l => .subscribe l.webRTCEndPointID "OnIceCandidate" l.sessionID, some fun _ l => l⟩,
    ⟨fun l => .processOffer l.webRTCEndPointID offer.sdp l.sessionID,
      some fun r l => { l with answer := r.value }⟩]

/-- The call behind the answer. -/
def gatherCandidates : Invocation :=
  ⟨fun l => .gatherCandidates l.webRTCEndPointID l.sessionID, some fun _ l => l⟩

/-- What the action is handed by the libraries. -/
structure Library where
  getRequestData : RequestData
  /-- `ws.ConnectAsync` returns. -/
  connectAsync : Bool
  invoke : Invoke
  /-- `JsonSerializer.SerializeAsync` returns. -/
  serializeAsync : Bool

/-- The `catch` block takes a `RemoteInvocationException` and logs it. -/
def escapes {α : Type} : Except Exn α → Bool
  | .error .other => true
  | _ => false

/-- `OfferAsync` -/
def offerAsync (lib : Library) : Ended :=
  match lib.getRequestData.offer? with
  | none => ⟨none, true⟩
  | some offer =>
      if ¬ lib.connectAsync then ⟨none, true⟩
      else
        match invokeAll lib.invoke (beforeAnswer offer) .start with
        | .error exn => ⟨none, escapes (.error exn : Except Exn Locals)⟩
        | .ok l =>
            if ¬ lib.serializeAsync then ⟨none, true⟩
            else ⟨some (answer l.answer), escapes (gatherCandidates.run lib.invoke l)⟩

end WebrtcEchoes.Kurento
