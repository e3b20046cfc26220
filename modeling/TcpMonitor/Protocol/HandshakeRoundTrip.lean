import TcpMonitor.Protocol.HandshakeParsing

/-!
# The round trip of a name

A name that fits is received as what `sanitize_peer_name` keeps of it.  The two
limits, 256 bytes on the wire and 64 characters after filtering, meet at
characters of four bytes: a name that was sanitised once always fits, and is
received unchanged.
-/

namespace TcpMonitor.HandshakeRoundTrip

open TcpMonitor.TransitionSystem
open TcpMonitor.Runtime
open TcpMonitor.Handshake
open TcpMonitor.PeerNames
open TcpMonitor.HandshakeParsing
open TcpMonitor.HandshakeParsing.HandshakeStream

/-- A name of at most 256 bytes is sent whole. -/
theorem sendHandshake_of_fits {name : String}
    (hfits : (asBytes name).length ≤ maxHandshakeNameLen) :
    sendHandshake name = BigEndian.encode 4 (asBytes name).length ++ asBytes name := by
  rw [sendHandshake_eq_take, List.take_of_length_le hfits]

/-- 64 characters take at most 256 bytes. -/
theorem length_asBytes_of_short {name : String} (hshort : name.length ≤ maxPeerNameChars) :
    (asBytes name).length ≤ maxHandshakeNameLen := by
  have hbytes := length_asBytes_le name
  simp only [maxPeerNameChars, maxHandshakeNameLen] at *
  omega

section RoundTrip

variable [tables : UnicodeTables]

/-- A call that has returned, on a stream that starts with the handshake of a
name that fits. -/
theorem received_of_reachable {name : String} {rest : List UInt8} {state : HandshakeStream}
    {result : Except ErrorKind String} (hnonempty : name ≠ "")
    (hfits : (asBytes name).length ≤ maxHandshakeNameLen)
    (hreach : Reachable step start state) (harrived : state.arrived = sendHandshake name ++ rest)
    (hreturned : state.point = .returned result) :
    result = .ok (sanitizePeerName name) ∧ state.unread = rest := by
  have hpositive : 0 < (asBytes name).length := List.length_pos_iff.mpr (asBytes_ne_nil hnonempty)
  rw [sendHandshake_of_fits hfits] at harrived
  rw [← peerName_asBytes]
  exact received_of_frame hpositive hfits hreach harrived hreturned

/-- A call on such a stream that has not returned goes on reading. -/
theorem goes_on_of_reachable {name : String} {rest : List UInt8} {state : HandshakeStream}
    (hnonempty : name ≠ "") (hfits : (asBytes name).length ≤ maxHandshakeNameLen)
    (hreach : Reachable step start state) (harrived : state.arrived = sendHandshake name ++ rest)
    (hreading : ∀ result, state.point ≠ .returned result) :
    ∃ count next, step state (.read count) = some next := by
  have hpositive : 0 < (asBytes name).length := List.length_pos_iff.mpr (asBytes_ne_nil hnonempty)
  rw [sendHandshake_of_fits hfits] at harrived
  exact goes_on_of_frame hpositive hfits hreach harrived hreading

/-- Every name that fits is received as what is kept of it, and exactly what
follows it is left; every sanitised name fits, is sent whole and received
unchanged; so names that were sanitised and differ give labels that differ. -/
theorem handshake_round_trip (htables : StandardTables tables) :
    (∀ (name : String) (rest : List UInt8) (state : HandshakeStream), name ≠ "" →
      (asBytes name).length ≤ maxHandshakeNameLen → Reachable step start state →
      state.arrived = sendHandshake name ++ rest →
      (∀ result, state.point = .returned result →
        result = .ok (sanitizePeerName name) ∧ state.unread = rest) ∧
      ((∀ result, state.point ≠ .returned result) →
        ∃ count next, step state (.read count) = some next) ∧
      ∀ (counts : List ℕ) last, run step state (counts.map StreamEvent.read) = some last →
        counts.length ≤ state.unread.length + 1) ∧
    (∀ input : String,
      sanitizePeerName input ≠ "" ∧
      (asBytes (sanitizePeerName input)).length ≤ maxHandshakeNameLen ∧
      sendHandshake (sanitizePeerName input) =
        BigEndian.encode 4 (asBytes (sanitizePeerName input)).length ++
          asBytes (sanitizePeerName input) ∧
      ∀ (rest : List UInt8) (state : HandshakeStream) result, Reachable step start state →
        state.arrived = sendHandshake (sanitizePeerName input) ++ rest →
        state.point = .returned result →
        result = .ok (sanitizePeerName input) ∧ state.unread = rest) ∧
    ∀ (left right : String) (leftState rightState : HandshakeStream)
      (leftRest rightRest : List UInt8) (leftLabel rightLabel : String),
      sanitizePeerName left = left → sanitizePeerName right = right → left ≠ right →
      Reachable step start leftState → Reachable step start rightState →
      leftState.arrived = sendHandshake left ++ leftRest →
      rightState.arrived = sendHandshake right ++ rightRest →
      leftState.point = .returned (.ok leftLabel) →
      rightState.point = .returned (.ok rightLabel) → leftLabel ≠ rightLabel := by
  have hsanitised : ∀ (input : String) (rest : List UInt8) (state : HandshakeStream) result,
      Reachable step start state →
      state.arrived = sendHandshake (sanitizePeerName input) ++ rest →
      state.point = .returned result →
      result = .ok (sanitizePeerName input) ∧ state.unread = rest := by
    intro input rest state result hreach harrived hreturned
    obtain ⟨hnonempty, hshort, -⟩ := sanitizePeerName_safe htables input
    obtain ⟨hresult, hunread⟩ := received_of_reachable hnonempty
      (length_asBytes_of_short hshort) hreach harrived hreturned
    rw [sanitizePeerName_idempotent htables] at hresult
    exact ⟨hresult, hunread⟩
  refine ⟨?_, ?_, ?_⟩
  · intro name rest state hnonempty hfits hreach harrived
    exact ⟨fun result => received_of_reachable hnonempty hfits hreach harrived,
      goes_on_of_reachable hnonempty hfits hreach harrived,
      fun counts last hrun => reads_bounded hrun⟩
  · intro input
    obtain ⟨hnonempty, hshort, -⟩ := sanitizePeerName_safe htables input
    have hfits := length_asBytes_of_short hshort
    exact ⟨hnonempty, hfits, sendHandshake_of_fits hfits, hsanitised input⟩
  · intro left right leftState rightState leftRest rightRest leftLabel rightLabel hleft hright
      hne hreachLeft hreachRight harrivedLeft harrivedRight hreturnedLeft hreturnedRight heq
    have hlabelLeft := (hsanitised left leftRest leftState _ hreachLeft
      (by rwa [hleft]) hreturnedLeft).1
    have hlabelRight := (hsanitised right rightRest rightState _ hreachRight
      (by rwa [hright]) hreturnedRight).1
    rw [hleft, Except.ok.injEq] at hlabelLeft
    rw [hright, Except.ok.injEq] at hlabelRight
    exact hne (hlabelLeft.symm.trans (heq.trans hlabelRight))

end RoundTrip

section Witness

local instance : UnicodeTables := asciiTables

/-- The handshake of `li` with a byte of a heartbeat behind it, in two reads. -/
theorem handshake_round_trip_of_li :
    ∃ state, Reachable step start state ∧ state.point = .returned (.ok "li") ∧
      sanitizePeerName "li" = "li" ∧ state.unread = [9] := by
  obtain ⟨state, hrun, hview⟩ := Option.map_eq_some_iff.mp
    (show (run step start [.arrive (sendHandshake "li" ++ [9]), .read 4, .read 2]).map
        (fun state => (state.point, state.arrived)) =
          some (.returned (.ok "li"), sendHandshake "li" ++ [9]) by decide +kernel)
  obtain ⟨hpoint, harrived⟩ := Prod.mk.inj hview
  obtain ⟨hresult, hunread⟩ := ((handshake_round_trip standardTables_ascii).1 "li" [9] state
    (by decide) (by decide +kernel) (Reachable.of_run hrun) harrived).1 _ hpoint
  rw [Except.ok.injEq] at hresult
  exact ⟨state, Reachable.of_run hrun, hpoint, hresult.symm, hunread⟩

end Witness

end TcpMonitor.HandshakeRoundTrip
