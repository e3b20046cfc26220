import TcpMonitor.Protocol.HandshakeParsing

/-!
# Names that are cut

`send_handshake` cuts a long name after 256 bytes, wherever that falls in a
character, and `read_handshake` decodes characters.  If a character ends at the
cut, the server obtains what it keeps of the longest prefix that fits.  If the
cut splits a character, the bytes are no text any more and nothing of the name
is left.
-/

namespace TcpMonitor.HandshakeTruncation

open TcpMonitor.TransitionSystem
open TcpMonitor.Runtime
open TcpMonitor.Handshake
open TcpMonitor.PeerNames
open TcpMonitor.HandshakeParsing
open TcpMonitor.HandshakeParsing.HandshakeStream

/-! ## Prefixes of a name -/

/-- The longest prefix of a name that is made of whole characters and fits in
256 bytes. -/
structure LongestPrefix (name kept : String) : Prop where
  isPrefix : kept.toList <+: name.toList
  fits : (asBytes kept).length ≤ maxHandshakeNameLen
  longest : ∀ other : String, other.toList <+: name.toList →
    (asBytes other).length ≤ maxHandshakeNameLen → other.length ≤ kept.length

/-- A character of the name ends after this many bytes. -/
def EndsCharacter (name : String) (count : ℕ) : Prop :=
  ∃ front : String, front.toList <+: name.toList ∧ (asBytes front).length = count

/-- The characters of a name, from the first on, as long as they fit. -/
def wholePrefix (name : String) : String :=
  String.ofList (WholePrefix.fitting Char.utf8Size maxHandshakeNameLen name.toList)

theorem longestPrefix_iff_longest {name kept : String} :
    LongestPrefix name kept ↔
      WholePrefix.Longest Char.utf8Size maxHandshakeNameLen name.toList kept.toList := by
  constructor
  · rintro ⟨hinitial, hfits, hmost⟩
    rw [length_asBytes] at hfits
    refine ⟨hinitial, hfits, ?_⟩
    intro other hother hothers
    have hlength := hmost (String.ofList other)
      (by rwa [String.toList_ofList]) (by rwa [length_asBytes, String.toList_ofList])
    rwa [String.length_ofList, ← String.length_toList] at hlength
  · rintro ⟨hinitial, hfits, hmost⟩
    refine ⟨hinitial, by rwa [length_asBytes], ?_⟩
    intro other hother hothers
    rw [length_asBytes] at hothers
    rw [← String.length_toList, ← String.length_toList]
    exact hmost other.toList hother hothers

/-- Every name has one longest prefix that fits. -/
theorem longestPrefix_iff {name kept : String} :
    LongestPrefix name kept ↔ kept = wholePrefix name := by
  rw [longestPrefix_iff_longest, WholePrefix.longest_iff, wholePrefix, ← String.toList_inj,
    String.toList_ofList]

/-- The longest prefix fills the room exactly if a character ends there. -/
theorem LongestPrefix.length_eq_iff {name kept : String} (hlongest : LongestPrefix name kept) :
    (asBytes kept).length = maxHandshakeNameLen ↔ EndsCharacter name maxHandshakeNameLen := by
  constructor
  · intro hfull
    exact ⟨kept, hlongest.isPrefix, hfull⟩
  · rintro ⟨front, hinitial, hfull⟩
    rw [length_asBytes] at hfull ⊢
    rw [(longestPrefix_iff_longest.mp hlongest).eq_of_total_eq Char.utf8Size_pos hinitial hfull,
      hfull]

/-! ## The cut, as text -/

/-- Bytes at the front of a name that are text spell characters at the front of
that name. -/
theorem toList_prefix_of_asBytes {name front : String} {rest : List UInt8}
    (hbytes : asBytes front ++ rest = asBytes name) : front.toList <+: name.toList := by
  have hencode : ∀ text : String, text.toList.utf8Encode = ⟨(asBytes text).toArray⟩ := by
    intro text
    rw [asBytes, Array.toArray_toList, String.toUTF8_eq_toByteArray, String.utf8Encode_toList]
  apply List.isPrefix_of_utf8Encode_append_eq_utf8Encode ⟨rest.toArray⟩
  rw [hencode, hencode, ← hbytes]
  apply ByteArray.ext
  simp

/-- The bytes of a prefix are at the front of those of the name. -/
theorem take_asBytes_of_initial {name front : String} (hinitial : front.toList <+: name.toList) :
    (asBytes name).take (asBytes front).length = asBytes front := by
  obtain ⟨back, hname⟩ := hinitial
  rw [asBytes_eq_flatMap name, ← hname, List.flatMap_append, ← asBytes_eq_flatMap,
    List.take_left' rfl]

/-- The bytes before the cut are text exactly if a character ends there. -/
theorem endsCharacter_iff {name : String} {count : ℕ} (hcount : count ≤ (asBytes name).length) :
    EndsCharacter name count ↔ ∃ front, asBytes front = (asBytes name).take count := by
  constructor
  · rintro ⟨front, hinitial, rfl⟩
    exact ⟨front, (take_asBytes_of_initial hinitial).symm⟩
  · rintro ⟨front, hfront⟩
    refine ⟨front, ?_, ?_⟩
    · have hbytes : asBytes front ++ (asBytes name).drop count = asBytes name := by
        rw [hfront, List.take_append_drop]
      exact toList_prefix_of_asBytes hbytes
    · rw [hfront, List.length_take_of_le hcount]

/-- Bytes that are no text give no name. -/
theorem peerName_of_no_text [UnicodeTables] {bytes : List UInt8}
    (hno : ∀ front : String, asBytes front ≠ bytes) : peerName bytes = "unknown" := by
  rw [peerName]
  split
  · next name hname =>
      rw [String.fromUTF8?] at hname
      split at hname
      · next hvalid =>
          exact absurd rfl (hno (String.fromUTF8 ⟨bytes.toArray⟩ hvalid))
      · cases hname
  · rfl

/-! ## What the server obtains -/

section Received

variable [tables : UnicodeTables]

/-- What the server obtains from the handshake of a name, however its bytes
arrive and are cut into reads and whatever follows them: no call returns
anything else, and every call can be brought to its end. -/
structure Obtains (name : String) (result : Except ErrorKind String) : Prop where
  returns : ∀ (rest : List UInt8) (state : HandshakeStream) other,
    Reachable step start state → state.arrived = sendHandshake name ++ rest →
    state.point = .returned other → other = result
  completes : ∀ (rest : List UInt8) (state : HandshakeStream),
    Reachable step start state → state.arrived = sendHandshake name ++ rest →
    ∃ (counts : List ℕ) (last : HandshakeStream),
      run step state (counts.map StreamEvent.read) = some last ∧ last.point = .returned result

theorem obtains_peerName {name : String} (hnonempty : name ≠ "") :
    Obtains name (.ok (peerName ((asBytes name).take maxHandshakeNameLen))) := by
  have hmax : ((asBytes name).take maxHandshakeNameLen).length ≤ maxHandshakeNameLen :=
    List.length_take_le _ _
  have hpositive : 0 < ((asBytes name).take maxHandshakeNameLen).length := by
    rw [List.length_take]
    exact Nat.lt_min.mpr ⟨by decide, List.length_pos_iff.mpr (asBytes_ne_nil hnonempty)⟩
  constructor
  · intro rest state other hreach harrived hreturned
    rw [sendHandshake_eq_take] at harrived
    exact (received_of_frame hpositive hmax hreach harrived hreturned).1
  · intro rest state hreach harrived
    rw [sendHandshake_eq_take] at harrived
    exact completed_of_frame hpositive hmax hreach harrived

/-- The server obtains one result. -/
theorem Obtains.unique {name : String} {left right : Except ErrorKind String}
    (hleft : Obtains name left) (hright : Obtains name right) : left = right := by
  obtain ⟨state, hrun, harrived⟩ : ∃ state, run step start [.arrive (sendHandshake name)] =
      some state ∧ state.arrived = sendHandshake name ++ [] := by
    exact ⟨_, rfl, by simp [start]⟩
  obtain ⟨counts, last, hreads, hlast⟩ :=
    hleft.completes [] state (Reachable.of_run hrun) harrived
  exact hright.returns [] last left ((Reachable.of_run hrun).trans (Reachable.of_run hreads))
    ((arrived_of_reads hreads).trans harrived) hlast

theorem obtains_iff {name : String} (hnonempty : name ≠ "") {result : Except ErrorKind String} :
    Obtains name result ↔
      result = .ok (peerName ((asBytes name).take maxHandshakeNameLen)) := by
  constructor
  · intro hobtains
    exact hobtains.unique (obtains_peerName hnonempty)
  · rintro rfl
    exact obtains_peerName hnonempty

/-! ## Long names -/

/-- A name whose cut splits no character is received as what is kept of its
longest prefix. -/
theorem peerName_of_endsCharacter {name kept : String} (hlongest : LongestPrefix name kept)
    (hends : EndsCharacter name maxHandshakeNameLen) :
    peerName ((asBytes name).take maxHandshakeNameLen) = sanitizePeerName kept := by
  have hfull := hlongest.length_eq_iff.mpr hends
  have hcut := take_asBytes_of_initial hlongest.isPrefix
  rw [hfull] at hcut
  rw [hcut, peerName_asBytes]

/-- A name whose cut splits a character is received as no name. -/
theorem peerName_of_splits {name : String} (hlong : maxHandshakeNameLen ≤ (asBytes name).length)
    (hsplits : ¬EndsCharacter name maxHandshakeNameLen) :
    peerName ((asBytes name).take maxHandshakeNameLen) = "unknown" := by
  apply peerName_of_no_text
  intro front hfront
  exact hsplits ((endsCharacter_iff hlong).mpr ⟨front, hfront⟩)

/-- The names of which nothing is kept, and the one that is called so. -/
theorem sanitizePeerName_eq_unknown {name : String} :
    sanitizePeerName name = "unknown" ↔
      name.toList.filter isSafe = [] ∨ name.toList.filter isSafe = "unknown".toList := by
  have hmax : maxPeerNameChars = 64 := rfl
  have hseven : "unknown".toList.length = 7 := by decide
  rw [sanitizePeerName_eq, hmax]
  constructor
  · intro hname
    split at hname
    · next hempty =>
        have hnone : (name.toList.filter isSafe).take 64 = [] := List.isEmpty_iff.mp hempty
        rw [List.take_eq_nil_iff] at hnone
        exact Or.inl (hnone.resolve_left (by decide))
    · have hchars : (name.toList.filter isSafe).take 64 = "unknown".toList := by
        rw [← hname, String.toList_ofList]
      have hlength := congrArg List.length hchars
      rw [List.length_take, hseven] at hlength
      rw [List.take_of_length_le (by omega)] at hchars
      exact Or.inr hchars
  · rintro (hnone | hunknown)
    · rw [hnone]
      rfl
    · rw [hunknown]
      decide

omit tables in
theorem ne_empty_of_long {name : String} (hlong : maxHandshakeNameLen < (asBytes name).length) :
    name ≠ "" := by
  rintro rfl
  exact absurd hlong (by decide)

/-- The peer of a name whose cut splits a character is `unknown`, whatever fits
before the cut. -/
theorem obtains_unknown_of_splits {name : String}
    (hlong : maxHandshakeNameLen < (asBytes name).length)
    (hsplits : ¬EndsCharacter name maxHandshakeNameLen) : Obtains name (.ok "unknown") := by
  rw [obtains_iff (ne_empty_of_long hlong), peerName_of_splits hlong.le hsplits]

/-- The server obtains what is kept of the longest prefix of a long name
exactly if the cut splits no character, or if what is kept of that prefix is
`unknown` anyway. -/
theorem truncation_keeps_name_iff {name kept : String}
    (hlong : maxHandshakeNameLen < (asBytes name).length) (hlongest : LongestPrefix name kept) :
    Obtains name (.ok (sanitizePeerName kept)) ↔
      EndsCharacter name maxHandshakeNameLen ∨ kept.toList.filter isSafe = [] ∨
        kept.toList.filter isSafe = "unknown".toList := by
  rw [obtains_iff (ne_empty_of_long hlong), Except.ok.injEq, ← sanitizePeerName_eq_unknown]
  by_cases hends : EndsCharacter name maxHandshakeNameLen
  · rw [peerName_of_endsCharacter hlongest hends]
    exact ⟨fun _ => Or.inl hends, fun _ => rfl⟩
  · rw [peerName_of_splits hlong.le hends]
    exact ⟨Or.inr, fun hcases => hcases.resolve_left hends⟩

end Received

section Witness

local instance : UnicodeTables := asciiTables

theorem length_asBytes_letters (count : ℕ) :
    (asBytes (String.ofList (List.replicate count 'a'))).length = count := by
  rw [length_asBytes, String.toList_ofList, WholePrefix.total_replicate]
  exact Nat.mul_one count

theorem sanitizePeerName_letters {count : ℕ} (hcount : 64 ≤ count) :
    sanitizePeerName (String.ofList (List.replicate count 'a')) =
      String.ofList (List.replicate 64 'a') := by
  have hmax : maxPeerNameChars = 64 := rfl
  rw [sanitizePeerName_eq, String.toList_ofList, List.filter_replicate_of_pos (by decide),
    List.take_replicate, hmax, Nat.min_eq_left hcount]
  rfl

theorem longestPrefix_letters {name : String} {count : ℕ} {next : Char} {rest : List Char}
    (hname : name.toList = List.replicate count 'a' ++ next :: rest)
    (hfits : count ≤ maxHandshakeNameLen) (hnext : maxHandshakeNameLen < count + next.utf8Size) :
    LongestPrefix name (String.ofList (List.replicate count 'a')) := by
  have htotal := length_asBytes_letters count
  rw [length_asBytes, String.toList_ofList] at htotal
  rw [longestPrefix_iff_longest, hname, String.toList_ofList]
  exact WholePrefix.longest_of_next (by rwa [htotal]) (by rwa [htotal])

/-- 300 letters, as in the test of the source. -/
theorem truncation_keeps_300_letters :
    Obtains (String.ofList (List.replicate 300 'a'))
      (.ok (String.ofList (List.replicate 64 'a'))) := by
  have hlongest : LongestPrefix (String.ofList (List.replicate 300 'a'))
      (String.ofList (List.replicate 256 'a')) := by
    have hname : (String.ofList (List.replicate 300 'a')).toList =
        List.replicate 256 'a' ++ 'a' :: List.replicate 43 'a' := by
      rw [String.toList_ofList, ← List.replicate_succ, List.replicate_append_replicate]
    exact longestPrefix_letters hname (by decide) (by decide)
  have hlong : maxHandshakeNameLen < (asBytes (String.ofList (List.replicate 300 'a'))).length := by
    rw [length_asBytes_letters]
    decide
  have hends := hlongest.length_eq_iff.mp (length_asBytes_letters 256)
  rw [← sanitizePeerName_letters (by decide : 64 ≤ 256)]
  exact (truncation_keeps_name_iff hlong hlongest).mpr (Or.inl hends)

/-- 255 letters and a character of two bytes: the server is left with
`unknown` although 255 letters fit. -/
theorem truncation_loses_name :
    ¬∀ name kept : String, maxHandshakeNameLen < (asBytes name).length →
      LongestPrefix name kept → Obtains name (.ok (sanitizePeerName kept)) := by
  intro hclaim
  have hlongest : LongestPrefix (String.ofList (List.replicate 255 'a' ++ ['é']))
      (String.ofList (List.replicate 255 'a')) :=
    longestPrefix_letters String.toList_ofList (by decide) (by decide)
  have hlong : maxHandshakeNameLen <
      (asBytes (String.ofList (List.replicate 255 'a' ++ ['é']))).length := by
    rw [length_asBytes, String.toList_ofList, WholePrefix.total_append, WholePrefix.total_replicate]
    decide
  have hsplits : ¬EndsCharacter (String.ofList (List.replicate 255 'a' ++ ['é']))
      maxHandshakeNameLen := by
    rw [← hlongest.length_eq_iff, length_asBytes_letters]
    decide
  have hobtains := (hclaim _ _ hlong hlongest).unique (obtains_unknown_of_splits hlong hsplits)
  rw [sanitizePeerName_letters (by decide : 64 ≤ 255), Except.ok.injEq] at hobtains
  exact absurd hobtains (by decide)

end Witness

end TcpMonitor.HandshakeTruncation
