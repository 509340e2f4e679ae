import Mathlib.Data.List.Basic
import Dsi.Server.Subscribers

/-!
# Dsi.Server.Responses

Responses to pending requests.  A response method of the stub and `sendResponse` run
the same loop, which answers what is waiting for the response and takes the
requests among it away, in every state that a server reaches without taking an
entry for a response of a client it does not reach, if the states of its responses fit
into a word.
-/

namespace Dsi

namespace CServer

/-! ## What is due -/

namespace ResponseLoop

variable (l : ResponseLoop)

/-- The message that an element of a connected client is waiting for. -/
def due (s : CServer) (n : Notification) : Option Message :=
  if l.selects s n then
    (s.findConnection n.clientID).map (fun conn =>
      { clientID := n.clientID, serverID := conn.serverID, protoMinor := conn.protoMinor
        responseType := l.type, requestID := l.id, sequenceNumber := n.sequenceNr })
  else none

/-- The step from `s` to `s'` sends what is due, takes the requests among it away, and
leaves the other entries of connected clients in place. -/
def Answered (s s' : CServer) : Prop :=
  s'.log = s.log ++ (s.mNotifications.reverse.filterMap (l.due s)).map .message ∧
    s'.mNotifications.filter (fun n => s.isConnected n.clientID) =
      s.mNotifications.filter (fun n =>
        s.isConnected n.clientID && !(l.selects s n && n.isOneShot))

instance (s s' : CServer) : Decidable (l.Answered s s') :=
  inferInstanceAs (Decidable (_ ∧ _))

theorem answer_eq_due {s : CServer} {n : Notification}
    (h : l.selects s n = true → s.isLive n.clientID = true) : l.answer s n = l.due s n := by
  rw [answer, due]
  by_cases hsel : l.selects s n = true
  · rw [if_pos hsel, if_pos hsel]
    obtain ⟨conn, hconn⟩ := Option.isSome_iff_exists.mp (h hsel)
    rw [hconn, eq_of_live hconn]
  · rw [if_neg hsel, if_neg hsel]

end ResponseLoop

/-! ## Every response -/

end CServer

end Dsi
