import TcpMonitor.Core.WholePrefix
import TcpMonitor.Protocol.Handshake

/-!
# Names of peers

What `sanitize_peer_name` keeps of a name can neither end a label value nor a
log line, and a name that it has made is one that it keeps.  The Unicode tables
are used only as far as these facts need them.
-/

namespace TcpMonitor.PeerNames

open TcpMonitor.Handshake

/-- `char::is_whitespace`: the characters with the property `White_Space`. -/
def isWhitespace (char : Char) : Bool :=
  (9 ≤ char.toNat && char.toNat ≤ 13) || (0x2000 ≤ char.toNat && char.toNat ≤ 0x200a) ||
    [0x20, 0x85, 0xa0, 0x1680, 0x2028, 0x2029, 0x202f, 0x205f, 0x3000].contains char.toNat

/-- `char::is_control`: the characters of the category `Cc`. -/
def isControl (char : Char) : Bool :=
  char.toNat ≤ 0x1f || (0x7f ≤ char.toNat && char.toNat ≤ 0x9f)

/-- The characters with which a name could break out of a label value or of a
log line. -/
def breaksOut (char : Char) : Bool :=
  ['"', '\'', '\\', '{', '}'].contains char || isWhitespace char || isControl char

/-- The tables are those of the standard: the letters of ASCII are
alphanumeric; quotes, backslash, braces, whitespace and control characters are
not. -/
structure StandardTables (tables : UnicodeTables) : Prop where
  letters : ∀ char, ('a' ≤ char ∧ char ≤ 'z') → tables.isAlphanumeric char = true
  harmless : ∀ char, breaksOut char = true → tables.isAlphanumeric char = false

/-- The characters that a peer name keeps. -/
def isSafe [UnicodeTables] (char : Char) : Bool :=
  UnicodeTables.isAlphanumeric char || char == '-' || char == '_' || char == '.'

section Names

variable [tables : UnicodeTables] {name : String}

theorem sanitizePeerName_eq (name : String) :
    sanitizePeerName name =
      if ((name.toList.filter isSafe).take maxPeerNameChars).isEmpty then "unknown"
      else String.ofList ((name.toList.filter isSafe).take maxPeerNameChars) := by
  have hempty : ∀ chars : List Char, (String.ofList chars).isEmpty = chars.isEmpty := by
    intro chars
    rw [Bool.eq_iff_iff, String.isEmpty_iff, List.isEmpty_iff, String.ofList_eq_empty_iff]
  rw [← hempty]
  rfl

/-- A name that is not empty, short and safe is kept. -/
theorem sanitizePeerName_of_safe (hnonempty : name ≠ "") (hshort : name.length ≤ maxPeerNameChars)
    (hsafe : ∀ char ∈ name.toList, isSafe char = true) : sanitizePeerName name = name := by
  have hkept : (name.toList.filter isSafe).take maxPeerNameChars = name.toList := by
    rw [List.filter_eq_self.mpr hsafe, List.take_of_length_le]
    rwa [String.length_toList]
  have hsome : name.toList.isEmpty = false := by
    simpa [List.isEmpty_eq_false_iff] using hnonempty
  rw [sanitizePeerName_eq, hkept, hsome]
  exact String.ofList_toList

/-- What is kept of any name is safe, not empty and short. -/
theorem sanitizePeerName_safe (htables : StandardTables tables) (name : String) :
    sanitizePeerName name ≠ "" ∧ (sanitizePeerName name).length ≤ maxPeerNameChars ∧
      ∀ char ∈ (sanitizePeerName name).toList, isSafe char = true := by
  rw [sanitizePeerName_eq]
  split
  · refine ⟨by decide, by decide, ?_⟩
    intro char hmem
    have hletters : "unknown".toList.all (fun char => 'a' ≤ char ∧ char ≤ 'z') = true := by decide
    have hletter := of_decide_eq_true (List.all_eq_true.mp hletters char hmem)
    rw [isSafe, htables.letters char hletter]
    rfl
  · next hkept =>
      refine ⟨?_, ?_, ?_⟩
      · rw [Ne, String.ofList_eq_empty_iff]
        simpa using hkept
      · rw [String.length_ofList]
        exact List.length_take_le _ _
      · intro char hmem
        rw [String.toList_ofList] at hmem
        exact (List.mem_filter.mp (List.mem_of_mem_take hmem)).2

theorem sanitizePeerName_idempotent (htables : StandardTables tables) (name : String) :
    sanitizePeerName (sanitizePeerName name) = sanitizePeerName name :=
  have hsafe := sanitizePeerName_safe htables name
  sanitizePeerName_of_safe hsafe.1 hsafe.2.1 hsafe.2.2

/-- A safe character breaks out of nothing. -/
theorem breaksOut_of_isSafe (htables : StandardTables tables) {char : Char}
    (hsafe : isSafe char = true) : breaksOut char = false := by
  by_contra hbreaks
  have hnot := htables.harmless char (by simpa using hbreaks)
  rw [isSafe, hnot, Bool.false_or, Bool.or_eq_true, Bool.or_eq_true] at hsafe
  simp only [beq_iff_eq] at hsafe
  rcases hsafe with (rfl | rfl) | rfl
  · exact hbreaks (by decide)
  · exact hbreaks (by decide)
  · exact hbreaks (by decide)

end Names

theorem asBytes_eq_flatMap (name : String) :
    asBytes name = name.toList.flatMap String.utf8EncodeChar := by
  rw [asBytes, String.toUTF8_eq_toByteArray, ← String.utf8Encode_toList, List.utf8Encode]
  exact List.toList_data_toByteArray

/-- The bytes of a name are those of its characters. -/
theorem length_asBytes (name : String) :
    (asBytes name).length = WholePrefix.total Char.utf8Size name.toList := by
  rw [asBytes_eq_flatMap]
  induction name.toList with
  | nil => rfl
  | cons char chars ih =>
      rw [List.flatMap_cons, List.length_append, String.length_utf8EncodeChar, ih,
        WholePrefix.total_cons]

/-- A UTF-8 character takes at most four bytes. -/
theorem length_asBytes_le (name : String) : (asBytes name).length ≤ 4 * name.length := by
  rw [length_asBytes, ← String.length_toList]
  induction name.toList with
  | nil => exact Nat.le_refl _
  | cons char chars ih =>
      have hchar := Char.utf8Size_le_four char
      rw [WholePrefix.total_cons, List.length_cons]
      omega

/-- The bytes of a name are read as that name. -/
theorem fromUtf8OrDefault_asBytes (name : String) : fromUtf8OrDefault (asBytes name) = name := by
  have hbytes : (⟨(asBytes name).toArray⟩ : ByteArray) = name.toByteArray := by
    rw [asBytes, Array.toArray_toList, String.toUTF8_eq_toByteArray]
  rw [fromUtf8OrDefault, hbytes, String.fromUTF8?, dif_pos name.isValidUTF8]
  rfl

theorem asBytes_ne_nil {name : String} (hnonempty : name ≠ "") : asBytes name ≠ [] := by
  intro hnil
  have hname := fromUtf8OrDefault_asBytes name
  rw [hnil] at hname
  exact hnonempty (hname.symm.trans (by decide))

theorem toNat_of_isAlphanum {char : Char} (halpha : char.isAlphanum = true) :
    (48 ≤ char.toNat ∧ char.toNat ≤ 57) ∨ (65 ≤ char.toNat ∧ char.toNat ≤ 90) ∨
      (97 ≤ char.toNat ∧ char.toNat ≤ 122) := by
  have hclasses : (char.isUpper || char.isLower || char.isDigit) = true := halpha
  rw [Bool.or_eq_true, Bool.or_eq_true] at hclasses
  rcases hclasses with (hupper | hlower) | hdigit
  · have hrange : 'A'.val ≤ char.val ∧ char.val ≤ 'Z'.val := of_decide_eq_true hupper
    exact Or.inr (Or.inl (hrange.imp UInt32.le_iff_toNat_le.mp UInt32.le_iff_toNat_le.mp))
  · have hrange := Bool.and_eq_true_iff.mp hlower
    simp only [decide_eq_true_eq] at hrange
    exact Or.inr (Or.inr (hrange.imp UInt32.le_iff_toNat_le.mp UInt32.le_iff_toNat_le.mp))
  · have hrange := Bool.and_eq_true_iff.mp hdigit
    simp only [decide_eq_true_eq] at hrange
    exact Or.inl (hrange.imp UInt32.le_iff_toNat_le.mp UInt32.le_iff_toNat_le.mp)

theorem toNat_of_breaksOut {char : Char} (hbreaks : breaksOut char = true) :
    char.toNat ≤ 39 ∨ char.toNat = 92 ∨ 123 ≤ char.toNat := by
  simp only [breaksOut, isWhitespace, isControl, List.contains_eq_mem, List.mem_cons,
    List.not_mem_nil, or_false, Bool.or_eq_true, Bool.and_eq_true, decide_eq_true_eq] at hbreaks
  rcases hbreaks with ((rfl | rfl | rfl | rfl | rfl) | hspace) | hcontrol
  · exact Or.inl (by decide)
  · exact Or.inl (by decide)
  · exact Or.inr (Or.inl (by decide))
  · exact Or.inr (Or.inr (by decide))
  · exact Or.inr (Or.inr (by decide))
  · omega
  · omega

/-- The tables restricted to ASCII are standard. -/
theorem standardTables_ascii : StandardTables asciiTables where
  letters := by
    intro char hchar
    have hlower : char.isLower = true :=
      Bool.and_eq_true_iff.mpr ⟨decide_eq_true hchar.1, decide_eq_true hchar.2⟩
    show (char.isUpper || char.isLower || char.isDigit) = true
    rw [hlower, Bool.or_true, Bool.true_or]
  harmless := by
    intro char hbreaks
    show char.isAlphanum = false
    by_contra halpha
    have hranges := toNat_of_isAlphanum (by simpa using halpha)
    have houtside := toNat_of_breaksOut hbreaks
    omega

end TcpMonitor.PeerNames
