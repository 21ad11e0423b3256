/-
The actions of the C# servers, as their web server sees them.

The three servers that use EmbedIO handle an offer in an action, which may write a session
description to the response and then either completes or is left by an exception.  The
response stream is not buffered, so what is written goes out with status 200.  Where nothing
is, EmbedIO answers with status 200 if the action completes and else with an error status.
-/
namespace WebrtcEchoes.EmbedIO

inductive RTCSdpType
  | offer | answer | pranswer | rollback
  deriving DecidableEq, Repr

structure RTCSessionDescriptionInit where
  type : RTCSdpType
  /-- `none` is a null reference. -/
  sdp : Option String
  deriving DecidableEq, Repr

/-- How an action ends. -/
structure Ended where
  /-- What was serialised to the response. -/
  written : Option RTCSessionDescriptionInit
  /-- An exception has left the action. -/
  threw : Bool
  deriving DecidableEq, Repr

/-- The description of an answer. -/
def answer (sdp : Option String) : RTCSessionDescriptionInit := ⟨.answer, sdp⟩

/-- `GetRequestDataAsync<RTCSessionDescriptionInit>`: `none` is an exception, and `some none`
the null that the body `null` is read as. -/
abbrev RequestData := Option (Option RTCSessionDescriptionInit)

/-- The members of the offer can be read. -/
def RequestData.offer? : RequestData → Option RTCSessionDescriptionInit := Option.join

end WebrtcEchoes.EmbedIO
