import TcpMonitor.Core.TextParser
import TcpMonitor.Configuration

/-!
# Socket addresses

`str::parse::<SocketAddr>` of the standard library, and `bind_addr` on it.
`Config::validate` tries `server.bind` with port 0 only; what it finds holds for
every port, whatever string the operator wrote.
-/

namespace TcpMonitor.SocketAddress

open TcpMonitor.Configuration hiding SocketAddr
open TcpMonitor.TextParser

/-! ## The parser -/

structure Ipv4Addr where
  a : UInt8
  b : UInt8
  c : UInt8
  d : UInt8
  deriving DecidableEq

structure Ipv6Addr where
  segments : Vector UInt16 8
  deriving DecidableEq

/-- A literal never has flow information. -/
inductive SocketAddr where
  | v4 (ip : Ipv4Addr) (port : UInt16)
  | v6 (ip : Ipv6Addr) (port : UInt16) (scopeId : UInt32)
  deriving DecidableEq

namespace SocketAddr

def port : SocketAddr → UInt16
  | v4 _ port | v6 _ port _ => port

/-- `SocketAddr::set_port`. -/
def withPort (port : UInt16) : SocketAddr → SocketAddr
  | v4 ip _ => v4 ip port
  | v6 ip _ scopeId => v6 ip port scopeId

@[simp]
theorem port_withPort (address : SocketAddr) (port : UInt16) :
    (address.withPort port).port = port := by
  cases address <;> rfl

end SocketAddr

/-- `char::to_digit`. -/
def toDigit (radix : ℕ) (char : Char) : Option ℕ :=
  let value :=
    if '0' ≤ char ∧ char ≤ '9' then some (char.toNat - 48)
    else if 'a' ≤ char ∧ char ≤ 'z' then some (char.toNat - 87)
    else if 'A' ≤ char ∧ char ≤ 'Z' then some (char.toNat - 55)
    else none
  value.filter (· < radix)

/-- The digits are limited in number, or else by the largest value of the type
(the checked arithmetic). -/
def digitsFit (max : ℕ) (maxDigits : Option ℕ) (result digitCount : ℕ) : Bool :=
  match maxDigits with
  | some maxDigits => digitCount ≤ maxDigits
  | none => result ≤ max

/-- The loop of `read_number`: the digits up to the first other character, and
how many they were. -/
def readDigits (radix max : ℕ) (maxDigits : Option ℕ) (result digitCount : ℕ) :
    Parser Char (ℕ × ℕ)
  | [] => some ((result, digitCount), [])
  | char :: rest =>
      match toDigit radix char with
      | none => some ((result, digitCount), char :: rest)
      | some digit =>
          let result := result * radix + digit
          let digitCount := digitCount + 1
          if digitsFit max maxDigits result digitCount then
            readDigits radix max maxDigits result digitCount rest
          else none

/-- `read_number`, for a type whose largest value is `max`. -/
def readNumber (radix max : ℕ) (maxDigits : Option ℕ) (allowZeroPrefix : Bool) :
    Parser Char ℕ := do
  let hasLeadingZero ← peekIs '0'
  let (result, digitCount) ← readDigits radix max maxDigits 0 0
  if digitCount = 0 then failure
  else if !allowZeroPrefix && hasLeadingZero && 1 < digitCount then failure
  else if result ≤ max then pure result
  else failure

def maxU8 : ℕ := 255
def maxU16 : ℕ := 65535
def maxU32 : ℕ := 4294967295

def readOctet (index : ℕ) : Parser Char UInt8 :=
  UInt8.ofNat <$> readSeparator '.' index (readNumber 10 maxU8 (some 3) false)

def readIpv4Addr : Parser Char Ipv4Addr := do
  let a ← readOctet 0
  let b ← readOctet 1
  let c ← readOctet 2
  let d ← readOctet 3
  pure ⟨a, b, c, d⟩

/-- Two octets as one group, the first one high. -/
def fromBeBytes (high low : UInt8) : UInt16 :=
  UInt16.ofNat (high.toNat * 256 + low.toNat)

/-- An IPv4 address at the end of an IPv6 address takes two slots. -/
def readEmbedded (limit index : ℕ) : Parser Char (Option Ipv4Addr) :=
  if index + 1 < limit then optional (readSeparator ':' index readIpv4Addr) else pure none

/-- `read_groups` with `left` of its `limit` slots to fill: the groups that were
read, and whether an IPv4 address ended them. -/
def readGroups (limit : ℕ) : ℕ → List UInt16 → Parser Char (List UInt16 × Bool)
  | 0, groups => pure (groups, false)
  | left + 1, groups => do
      let index := groups.length
      let ipv4 ← readEmbedded limit index
      match ipv4 with
      | some ip => pure (groups ++ [fromBeBytes ip.a ip.b, fromBeBytes ip.c ip.d], true)
      | none =>
          let group ← optional (readSeparator ':' index (readNumber 16 maxU16 (some 4) true))
          match group with
          | some group => readGroups limit left (groups ++ [UInt16.ofNat group])
          | none => pure (groups, false)

/-- The groups before and after the zeros. -/
def joinGroups (head tail : List UInt16) : Ipv6Addr :=
  ⟨Vector.ofFn fun index : Fin 8 =>
    if 8 - tail.length ≤ index.val then tail.getD (index.val - (8 - tail.length)) 0
    else head.getD index.val 0⟩

def readIpv6Addr : Parser Char Ipv6Addr := do
  let (head, headIpv4) ← readGroups 8 8 []
  if head.length = 8 then pure (joinGroups head [])
  else if headIpv4 then failure
  else do
    readGiven ':'
    readGiven ':'
    -- the two colons stand for at least one group
    let limit := 8 - (head.length + 1)
    let (tail, _) ← readGroups limit limit []
    pure (joinGroups head tail)

def readPort : Parser Char UInt16 := do
  readGiven ':'
  UInt16.ofNat <$> readNumber 10 maxU16 none true

def readScopeId : Parser Char UInt32 := do
  readGiven '%'
  UInt32.ofNat <$> readNumber 10 maxU32 none true

def readSocketAddrV4 : Parser Char SocketAddr := do
  let ip ← readIpv4Addr
  let port ← readPort
  pure (.v4 ip port)

def readScopedIpv6Addr : Parser Char (Ipv6Addr × UInt32) := do
  let ip ← readIpv6Addr
  let scopeId ← optional readScopeId
  pure (ip, scopeId.getD 0)

/-- The address between its brackets. -/
def readBracketed : Parser Char (Ipv6Addr × UInt32) := do
  readGiven '['
  readClosed ']' readScopedIpv6Addr

def readSocketAddrV6 : Parser Char SocketAddr := do
  let (ip, scopeId) ← readBracketed
  let port ← readPort
  pure (.v6 ip port scopeId)

def readSocketAddr : Parser Char SocketAddr :=
  readSocketAddrV4 <|> readSocketAddrV6

/-- `str::parse::<SocketAddr>`; the standard library reads bytes, of which those
of a character beyond ASCII match nothing either. -/
def parse (text : String) : Except String SocketAddr :=
  match parseWith readSocketAddr text.toList with
  | some address => .ok address
  | none => .error "invalid socket address syntax"

instance : SocketAddrParser := ⟨SocketAddr, parse⟩

/-! ## Where the parser stops -/

section Stops

variable {stop : Char}

theorem stopsAt_readDigits {radix max result digitCount : ℕ} {maxDigits : Option ℕ}
    (hdigit : toDigit radix stop = none) :
    StopsAt stop (readDigits radix max maxDigits result digitCount) where
  stops front rest hstop := by
    induction front generalizing result digitCount with
    | nil => simp [readDigits, hdigit]
    | cons char front ih =>
        simp only [List.cons_append, readDigits]
        cases toDigit radix char with
        | none => rfl
        | some digit =>
            dsimp only
            split
            · exact ih fun hmem => hstop (List.mem_cons_of_mem char hmem)
            · rfl
  suffix {input value left} hparse := by
    induction input generalizing result digitCount with
    | nil =>
        cases hparse
        exact List.suffix_rfl
    | cons char rest ih =>
        simp only [readDigits] at hparse
        split at hparse
        · cases hparse
          exact List.suffix_rfl
        · obtain ⟨-, hrest⟩ := Option.ite_none_right_eq_some.mp hparse
          exact (ih hrest).trans (List.suffix_cons char rest)

theorem stopsAt_readNumber {radix max : ℕ} {maxDigits : Option ℕ} {allowZeroPrefix : Bool}
    (hdigit : toDigit radix stop = none) (hzero : stop ≠ '0') :
    StopsAt stop (readNumber radix max maxDigits allowZeroPrefix) :=
  (StopsAt.peekIs hzero).bind fun _ => (stopsAt_readDigits hdigit).bind fun _ =>
    .ite .failure (.ite .failure (.ite (.pure _) .failure))

theorem stopsAt_readOctet {index : ℕ} (hdigit : toDigit 10 stop = none) (hzero : stop ≠ '0')
    (hdot : stop ≠ '.') : StopsAt stop (readOctet index) :=
  (StopsAt.readSeparator hdot (stopsAt_readNumber hdigit hzero)).map _

theorem stopsAt_readIpv4Addr (hdigit : toDigit 10 stop = none) (hzero : stop ≠ '0')
    (hdot : stop ≠ '.') : StopsAt stop readIpv4Addr := by
  have hoctet : ∀ index, StopsAt stop (readOctet index) := fun _ =>
    stopsAt_readOctet hdigit hzero hdot
  exact (hoctet 0).bind fun _ => (hoctet 1).bind fun _ => (hoctet 2).bind fun _ =>
    (hoctet 3).bind fun _ => .pure _

theorem stopsAt_readGroups (limit left : ℕ) (groups : List UInt16) :
    StopsAt ']' (readGroups limit left groups) := by
  induction left generalizing groups with
  | zero => exact .pure _
  | succ left ih =>
      have hipv4 : StopsAt ']' readIpv4Addr :=
        stopsAt_readIpv4Addr (by decide) (by decide) (by decide)
      have hgroup : StopsAt ']' (readNumber 16 maxU16 (some 4) true) :=
        stopsAt_readNumber (by decide) (by decide)
      have hcolon : ']' ≠ ':' := by decide
      rw [readGroups]
      refine StopsAt.bind ?_ fun ipv4 => ?_
      · exact .ite (.optional (.readSeparator hcolon hipv4)) (.pure none)
      · cases ipv4 with
        | some ip => exact .pure _
        | none =>
            refine StopsAt.bind (.optional (.readSeparator hcolon hgroup)) fun group => ?_
            cases group with
            | some group => exact ih _
            | none => exact .pure _

theorem stopsAt_readIpv6Addr : StopsAt ']' readIpv6Addr := by
  have hcolon : StopsAt ']' (readGiven ':') := .readGiven (by decide)
  exact (stopsAt_readGroups 8 8 []).bind fun (head, _) =>
    .ite (.pure _) (.ite .failure (hcolon.bind fun _ => hcolon.bind fun _ =>
      (stopsAt_readGroups _ _ []).bind fun _ => .pure _))

theorem stopsAt_readScopedIpv6Addr : StopsAt ']' readScopedIpv6Addr := by
  have hscope : StopsAt ']' readScopeId :=
    (StopsAt.readGiven (by decide)).bind fun _ =>
      (stopsAt_readNumber (by decide) (by decide)).map _
  exact stopsAt_readIpv6Addr.bind fun _ => hscope.optional.bind fun _ => .pure _

end Stops

/-! ## The port -/

theorem toDigit_of_isDigit {char : Char} (hdigit : char.isDigit = true) :
    toDigit 10 char = some (char.toNat - 48) := by
  have hbounds : 48 ≤ char.toNat ∧ char.toNat ≤ 57 := Char.isDigit_iff_toNat.mp hdigit
  have hrange : '0' ≤ char ∧ char ≤ '9' := hbounds
  have hlt : char.toNat - 48 < 10 := by omega
  simp [toDigit, hrange, hlt]

/-- The loop of `read_number` on nothing but decimal digits. -/
theorem readDigits_decimal {max result digitCount : ℕ} {digits : List Char}
    (hdigits : ∀ char ∈ digits, char.isDigit = true)
    (hmax : Nat.ofDigitChars 10 digits result ≤ max) :
    readDigits 10 max none result digitCount digits =
      some ((Nat.ofDigitChars 10 digits result, digitCount + digits.length), []) := by
  induction digits generalizing result digitCount with
  | nil => simp [readDigits]
  | cons char rest ih =>
      rw [Nat.ofDigitChars_cons, Nat.mul_comm] at hmax ⊢
      have hvalue : result * 10 + (char.toNat - 48) ≤ max := by
        rw [Nat.ofDigitChars_eq_ofDigitChars_zero] at hmax
        exact le_trans (Nat.le_trans (Nat.le_mul_of_pos_left _ (Nat.pow_pos (by decide)))
          (Nat.le_add_right _ _)) hmax
      have hrest := @ih (result * 10 + (char.toNat - 48)) (digitCount + 1)
        (fun char hmem => hdigits char (List.mem_cons_of_mem _ hmem)) hmax
      simp only [readDigits, toDigit_of_isDigit (hdigits char List.mem_cons_self), digitsFit,
        decide_eq_true hvalue, if_true]
      rw [List.length_cons, hrest, Nat.add_assoc, Nat.add_comm 1]
      rfl

theorem toList_toString_port (port : UInt16) :
    (toString port).toList = Nat.toDigits 10 port.toNat :=
  Nat.toList_repr

/-- The digits that `format!` writes for a port are read back as this port. -/
theorem readNumber_port (port : UInt16) :
    readNumber 10 maxU16 none true (toString port).toList = some (port.toNat, []) := by
  rw [toList_toString_port]
  have hdigits : ∀ char ∈ Nat.toDigits 10 port.toNat, char.isDigit = true := fun _ hmem =>
    Nat.isDigit_of_mem_toDigits (by decide) (by decide) hmem
  have hvalue : Nat.ofDigitChars 10 (Nat.toDigits 10 port.toNat) 0 = port.toNat :=
    Nat.ofDigitChars_ten_toDigits
  have hmax : port.toNat ≤ maxU16 := Nat.le_of_lt_succ port.toNat_lt
  have hlength : (Nat.toDigits 10 port.toNat).length ≠ 0 := fun hlength =>
    Nat.toDigits_ne_nil (List.length_eq_zero_iff.mp hlength)
  have hdecimal := @readDigits_decimal maxU16 0 0 _ hdigits (hvalue.le.trans hmax)
  rw [hvalue] at hdecimal
  rw [readNumber, bind_apply]
  simp only [peekIs, Option.bind_some, bind_apply]
  rw [hdecimal]
  simp only [Option.bind_some, Nat.zero_add, hlength, if_false, hmax, if_true,
    Bool.not_true, Bool.false_and]
  rfl

theorem readPort_cons (digits : List Char) :
    readPort (':' :: digits) = (UInt16.ofNat <$> readNumber 10 maxU16 none true) digits := by
  rw [readPort, bind_apply, readGiven_cons]
  rfl

/-- Between the address and its end there is the port and nothing else. -/
theorem parseWith_readPort (left : List Char) (port : UInt16) :
    parseWith readPort (left ++ ':' :: (toString port).toList) =
      if left = [] then some port else none := by
  cases left with
  | nil =>
      rw [List.nil_append, parseWith, readPort_cons, ← parseWith, parseWith_map, parseWith,
        readNumber_port, if_pos rfl, Option.map_some, UInt16.ofNat_toNat]
  | cons char more =>
      rw [if_neg (List.cons_ne_nil char more), List.cons_append]
      by_cases hcolon : char = ':'
      · -- the number ends at the second colon
        have hnumber : StopsAt ':' (UInt16.ofNat <$> readNumber 10 maxU16 none true) :=
          (stopsAt_readNumber (by decide) (by decide)).map _
        rw [hcolon, parseWith, readPort_cons, ← parseWith]
        exact hnumber.parseWith_eq_none (List.mem_append_right more List.mem_cons_self)
      · have hhead : (char :: (more ++ ':' :: (toString port).toList)).head? ≠ some ':' :=
          fun hhead => hcolon (Option.some.inj hhead)
        rw [parseWith, readPort, bind_apply, readGiven_eq_none hhead]
        rfl

/-! ## Literal addresses -/

/-- An IP address with no port; IPv6 is in brackets. -/
def readLiteral : Parser Char SocketAddr :=
  (fun ip => .v4 ip 0) <$> readIpv4Addr <|>
    (fun literal => .v6 literal.1 0 literal.2) <$> readBracketed

/-- What an operator may write as `server.bind`: one literal IP address and
nothing else. -/
def literalIp (host : String) : Option SocketAddr :=
  parseWith readLiteral host.toList

/-- An address and its port, if the first part leaves what follows it alone. -/
theorem parseWith_address {Value : Type} {first : Parser Char Value}
    {make : Value → UInt16 → SocketAddr} {host : List Char} {port : UInt16}
    (hfirst : first (host ++ ':' :: (toString port).toList) =
      (first host).map fun result => (result.1, result.2 ++ ':' :: (toString port).toList)) :
    parseWith (first >>= fun value => make value <$> readPort)
        (host ++ ':' :: (toString port).toList) =
      (parseWith first host).map fun value => make value port := by
  cases hhost : first host with
  | none =>
      rw [hhost] at hfirst
      rw [parseWith_bind_none hfirst, parseWith, hhost]
      rfl
  | some result =>
      obtain ⟨value, left⟩ := result
      rw [hhost] at hfirst
      rw [parseWith_bind hfirst, parseWith_map, parseWith_readPort, parseWith, hhost]
      cases left with
      | nil => rfl
      | cons char more => rfl

theorem readBracketed_eq_none {input : List Char} (hhead : input.head? ≠ some '[') :
    readBracketed input = none := by
  rw [readBracketed, bind_apply, readGiven_eq_none hhead]
  rfl

theorem readIpv4Addr_append (host rest : List Char) :
    readIpv4Addr (host ++ ':' :: rest) =
      (readIpv4Addr host).map fun result => (result.1, result.2 ++ ':' :: rest) := by
  have hstops : StopsAt ':' readIpv4Addr :=
    stopsAt_readIpv4Addr (by decide) (by decide) (by decide)
  exact hstops.append_stop host rest

theorem readBracketed_append (host : List Char) {digits : List Char} (hdigits : ']' ∉ digits) :
    readBracketed (host ++ ':' :: digits) =
      (readBracketed host).map fun result => (result.1, result.2 ++ ':' :: digits) := by
  have hrest : ']' ∉ ':' :: digits := by simp [hdigits]
  by_cases hhead : host.head? = some '['
  · obtain ⟨more, rfl⟩ := List.head?_eq_some_iff.mp hhead
    simp only [readBracketed, bind_apply, List.cons_append, readGiven_cons, Option.bind_some]
    exact stopsAt_readScopedIpv6Addr.closed_append more hrest
  · have hwhole : (host ++ ':' :: digits).head? ≠ some '[' := by
      cases host with
      | nil => simp
      | cons char more => exact hhead
    rw [readBracketed_eq_none hhead, readBracketed_eq_none hwhole]
    rfl

theorem closing_not_mem_port (port : UInt16) : ']' ∉ (toString port).toList := by
  intro hmem
  rw [toList_toString_port] at hmem
  have hdigit : (']').isDigit = true := Nat.isDigit_of_mem_toDigits (by decide) (by decide) hmem
  exact absurd hdigit (by decide)

/-- The host part decides alone, and the port is the one that was asked for. -/
theorem parseWith_readSocketAddr (host : String) (port : UInt16) :
    parseWith readSocketAddr (host.toList ++ ':' :: (toString port).toList) =
      (literalIp host).map (SocketAddr.withPort port) := by
  rw [literalIp, readLiteral, readSocketAddr]
  by_cases hhead : host.toList.head? = some '['
  · -- an address in brackets
    obtain ⟨more, hhost⟩ := List.head?_eq_some_iff.mp hhead
    have hv4 : ∀ rest, readSocketAddrV4 (('[' :: more) ++ rest) = none := fun _ => rfl
    have hliteral : ((fun ip => SocketAddr.v4 ip 0) <$> readIpv4Addr) ('[' :: more) = none := rfl
    have hfirst := readBracketed_append host.toList (closing_not_mem_port port)
    rw [hhost] at hfirst ⊢
    rw [parseWith_orElse_right (hv4 _), parseWith_orElse_right hliteral, parseWith_map,
      Option.map_map]
    exact @parseWith_address _ _ (fun literal port => .v6 literal.1 port literal.2) _ _ hfirst
  · -- an IPv4 address
    have hwhole : (host.toList ++ ':' :: (toString port).toList).head? ≠ some '[' := by
      cases hhost : host.toList with
      | nil => simp
      | cons char more =>
          rw [hhost] at hhead
          exact hhead
    have hv6 : readSocketAddrV6 (host.toList ++ ':' :: (toString port).toList) = none := by
      rw [readSocketAddrV6, bind_apply, readBracketed_eq_none hwhole]
      rfl
    have hliteral : ((fun literal => SocketAddr.v6 literal.1 0 literal.2) <$> readBracketed)
        host.toList = none := by
      change (readBracketed host.toList).bind _ = none
      rw [readBracketed_eq_none hhead]
      rfl
    rw [parseWith_orElse_left hv6, parseWith_orElse_left hliteral, parseWith_map,
      Option.map_map]
    exact parseWith_address (readIpv4Addr_append host.toList _)

/-- `bind_addr`: the address is that of the host with the port; the error does
not depend on the port. -/
theorem bindAddr_eq (host : String) (port : UInt16) :
    bindAddr host port =
      match literalIp host with
      | some address => .ok (address.withPort port)
      | none => .error ("server.bind " ++ host.quote ++
          " is not an IP address (IPv6 needs brackets, e.g. \"[::]\"): " ++
          "invalid socket address syntax") := by
  have htext : (host ++ ":" ++ toString port).toList =
      host.toList ++ ':' :: (toString port).toList := by
    simp [String.toList_append]
  have hparse : SocketAddrParser.parse (host ++ ":" ++ toString port) =
      parse (host ++ ":" ++ toString port) := rfl
  rw [bindAddr, hparse, parse, htext, parseWith_readSocketAddr]
  cases literalIp host with
  | none => rfl
  | some address => rfl

end TcpMonitor.SocketAddress
