import Mathlib.Data.List.Infix

/-!
# Parsers with a stop character

A parser takes what it reads off the front of its input, and leaves the input
alone when it fails.  Many parsers never get past a certain character: to them
it reads like the end of the input.  What such a parser does is then decided by
the characters before the first stop character, whatever stands behind it.
-/

namespace TcpMonitor.TextParser

variable {Token Value Other : Type}

/-- A parser returns its value and the rest of the input. -/
abbrev Parser (Token : Type) := StateT (List Token) Option

/-- Reads one token that passes a test. -/
def readWhere (test : Token → Option Value) : Parser Token Value
  | [] => none
  | token :: rest => (test token).map fun value => (value, rest)

/-- Reads the token that is asked for. -/
def readGiven [DecidableEq Token] (target : Token) : Parser Token Unit :=
  readWhere fun token => if token = target then some () else none

/-- Is this the next token?  It is not taken. -/
def peekIs [DecidableEq Token] (target : Token) : Parser Token Bool :=
  fun input => some (input.head? = some target, input)

/-- A separator before every item but the first, then the item. -/
def readSeparator [DecidableEq Token] (separator : Token) (index : ℕ)
    (item : Parser Token Value) : Parser Token Value :=
  if 0 < index then do
    readGiven separator
    item
  else item

/-- A closing token after what the parser reads. -/
def readClosed [DecidableEq Token] (closing : Token) (parser : Parser Token Value) :
    Parser Token Value := do
  let value ← parser
  readGiven closing
  pure value

/-- The parser has to read all of its input. -/
def parseWith (parser : Parser Token Value) (input : List Token) : Option Value :=
  match parser input with
  | some (value, []) => some value
  | _ => none

@[simp]
theorem bind_apply (parser : Parser Token Value) (next : Value → Parser Token Other)
    (input : List Token) :
    (parser >>= next) input = (parser input).bind fun result => next result.1 result.2 :=
  rfl

@[simp]
theorem orElse_apply (parser other : Parser Token Value) (input : List Token) :
    (parser <|> other) input = (parser input <|> other input) :=
  rfl

/-- The parser never gets past the stop token, and never adds to its input. -/
structure StopsAt (stop : Token) (parser : Parser Token Value) : Prop where
  stops : ∀ front rest, stop ∉ front →
    parser (front ++ stop :: rest) =
      (parser front).map fun result => (result.1, result.2 ++ stop :: rest)
  suffix : ∀ {input value left}, parser input = some (value, left) → left <:+ input

namespace StopsAt

variable {stop : Token} {parser other : Parser Token Value} {next : Value → Parser Token Other}

theorem pure (value : Value) : StopsAt stop (pure value : Parser Token Value) where
  stops _ _ _ := rfl
  suffix hparse := by
    cases hparse
    exact List.suffix_rfl

theorem bind (hparser : StopsAt stop parser) (hnext : ∀ value, StopsAt stop (next value)) :
    StopsAt stop (parser >>= next) where
  stops front rest hstop := by
    rw [bind_apply, bind_apply, hparser.stops front rest hstop]
    cases hfront : parser front with
    | none => rfl
    | some result =>
        obtain ⟨value, left⟩ := result
        have hleft : stop ∉ left := fun hmem => hstop ((hparser.suffix hfront).subset hmem)
        exact (hnext value).stops left rest hleft
  suffix {input value left} hparse := by
    rw [bind_apply, Option.bind_eq_some_iff] at hparse
    obtain ⟨⟨middle, between⟩, hfirst, hsecond⟩ := hparse
    exact ((hnext middle).suffix hsecond).trans (hparser.suffix hfirst)

theorem map (hparser : StopsAt stop parser) (change : Value → Other) :
    StopsAt stop (change <$> parser) :=
  hparser.bind fun value => .pure (change value)

theorem orElse (hparser : StopsAt stop parser) (hother : StopsAt stop other) :
    StopsAt stop (parser <|> other) where
  stops front rest hstop := by
    rw [orElse_apply, orElse_apply, hparser.stops front rest hstop, hother.stops front rest hstop]
    cases parser front with
    | none => rfl
    | some result => rfl
  suffix {input value left} hparse := by
    rw [orElse_apply] at hparse
    cases hfirst : parser input with
    | none =>
        rw [hfirst] at hparse
        exact hother.suffix hparse
    | some result =>
        rw [hfirst] at hparse
        cases hparse
        exact hparser.suffix hfirst

theorem optional (hparser : StopsAt stop parser) : StopsAt stop (optional parser) :=
  (hparser.map some).orElse (.pure none)

theorem ite {condition : Prop} [Decidable condition] (hparser : StopsAt stop parser)
    (hother : StopsAt stop other) : StopsAt stop (if condition then parser else other) := by
  split
  · exact hparser
  · exact hother

theorem failure : StopsAt stop (failure : Parser Token Value) where
  stops _ _ _ := rfl
  suffix := nofun

theorem readWhere {test : Token → Option Value} (htest : test stop = none) :
    StopsAt stop (readWhere test) where
  stops front rest _ := by
    cases front with
    | nil => simp [TextParser.readWhere, htest]
    | cons token front =>
        simp only [List.cons_append, TextParser.readWhere, Option.map_map]
        rfl
  suffix {input value left} hparse := by
    cases input with
    | nil => cases hparse
    | cons token rest =>
        obtain ⟨value', -, heq⟩ := Option.map_eq_some_iff.mp hparse
        cases heq
        exact List.suffix_cons token left

variable [DecidableEq Token]

theorem readGiven {target : Token} (hne : stop ≠ target) : StopsAt stop (readGiven target) :=
  .readWhere (if_neg hne)

theorem peekIs {target : Token} (hne : stop ≠ target) : StopsAt stop (peekIs target) where
  stops front rest _ := by
    cases front with
    | nil => simp [TextParser.peekIs, hne]
    | cons token front => rfl
  suffix hparse := by
    cases hparse
    exact List.suffix_rfl

theorem readSeparator {separator : Token} {index : ℕ} (hne : stop ≠ separator)
    (hparser : StopsAt stop parser) : StopsAt stop (readSeparator separator index parser) :=
  .ite (.bind (.readGiven hne) fun _ => hparser) hparser

end StopsAt

theorem readGiven_eq_none [DecidableEq Token] {target : Token} {input : List Token}
    (hhead : input.head? ≠ some target) : readGiven target input = none := by
  cases input with
  | nil => rfl
  | cons token rest =>
      have hne : token ≠ target := fun heq => hhead (heq ▸ rfl)
      simp [readGiven, readWhere, hne]

@[simp]
theorem readGiven_cons [DecidableEq Token] (target : Token) (rest : List Token) :
    readGiven target (target :: rest) = some ((), rest) := by
  simp [readGiven, readWhere]

theorem parseWith_orElse_left {parser other : Parser Token Value} {input : List Token}
    (hother : other input = none) :
    parseWith (parser <|> other) input = parseWith parser input := by
  rw [parseWith, parseWith, orElse_apply, hother]
  cases parser input with
  | none => rfl
  | some result => rfl

theorem parseWith_orElse_right {parser other : Parser Token Value} {input : List Token}
    (hparser : parser input = none) :
    parseWith (parser <|> other) input = parseWith other input := by
  rw [parseWith, parseWith, orElse_apply, hparser]
  rfl

theorem parseWith_bind {parser : Parser Token Value} {next : Value → Parser Token Other}
    {input left : List Token} {value : Value} (hparse : parser input = some (value, left)) :
    parseWith (parser >>= next) input = parseWith (next value) left := by
  rw [parseWith, parseWith, bind_apply, hparse, Option.bind_some]

theorem parseWith_bind_none {parser : Parser Token Value} {next : Value → Parser Token Other}
    {input : List Token} (hparse : parser input = none) :
    parseWith (parser >>= next) input = none := by
  rw [parseWith, bind_apply, hparse, Option.bind_none]

theorem parseWith_map (parser : Parser Token Value) (change : Value → Other) (input : List Token) :
    parseWith (change <$> parser) input = (parseWith parser input).map change := by
  have hmap : (change <$> parser) input =
      (parser input).bind fun result => some (change result.1, result.2) := rfl
  rw [parseWith, parseWith, hmap]
  cases parser input with
  | none => rfl
  | some result =>
      obtain ⟨value, left⟩ := result
      cases left with
      | nil => rfl
      | cons token rest => rfl

namespace StopsAt

variable {stop : Token} {parser : Parser Token Value}

/-- Behind a stop token the input may go on in any way. -/
theorem append (hparser : StopsAt stop parser) {input : List Token} (hmem : stop ∈ input)
    (more : List Token) :
    parser (input ++ more) = (parser input).map fun result => (result.1, result.2 ++ more) := by
  obtain ⟨front, back, rfl, hfront⟩ := List.eq_append_cons_of_mem hmem
  rw [List.append_assoc, List.cons_append, hparser.stops front _ hfront,
    hparser.stops front _ hfront, Option.map_map]
  simp only [Function.comp_def, List.append_assoc, List.cons_append]

/-- A stop token and what follows it may be added to any input. -/
theorem append_stop (hparser : StopsAt stop parser) (input rest : List Token) :
    parser (input ++ stop :: rest) =
      (parser input).map fun result => (result.1, result.2 ++ stop :: rest) := by
  by_cases hmem : stop ∈ input
  · exact hparser.append hmem (stop :: rest)
  · exact hparser.stops input rest hmem

theorem mem_left (hparser : StopsAt stop parser) {input left : List Token} {value : Value}
    (hmem : stop ∈ input) (hparse : parser input = some (value, left)) : stop ∈ left := by
  obtain ⟨front, back, rfl, -⟩ := List.eq_append_cons_of_mem hmem
  rw [hparser.append_stop] at hparse
  obtain ⟨⟨value', left'⟩, -, heq⟩ := Option.map_eq_some_iff.mp hparse
  cases heq
  exact List.mem_append_right left' List.mem_cons_self

/-- An input with a stop token is not read to its end. -/
theorem parseWith_eq_none (hparser : StopsAt stop parser) {input : List Token}
    (hmem : stop ∈ input) : parseWith parser input = none := by
  rw [parseWith]
  split
  · next hparse => exact absurd (hparser.mem_left hmem hparse) List.not_mem_nil
  · rfl

/-- Once the stop token has been read as well, anything without another one may
follow. -/
theorem closed_append [DecidableEq Token] (hparser : StopsAt stop parser) (input : List Token)
    {more : List Token} (hmore : stop ∉ more) :
    readClosed stop parser (input ++ more) =
      (readClosed stop parser input).map fun result => (result.1, result.2 ++ more) := by
  by_cases hmem : stop ∈ input
  · rw [readClosed, bind_apply, bind_apply, hparser.append hmem more]
    cases hparse : parser input with
    | none => rfl
    | some result =>
        obtain ⟨value, left⟩ := result
        obtain ⟨token, rest, rfl⟩ := List.exists_cons_of_ne_nil
          (List.ne_nil_of_mem (hparser.mem_left hmem hparse))
        by_cases htoken : token = stop
        · subst htoken
          simp only [Option.map_some, Option.bind_some, bind_apply, List.cons_append,
            readGiven_cons]
          rfl
        · have hhead : ∀ rest : List Token, (token :: rest).head? ≠ some stop := fun _ hhead =>
            htoken (Option.some.inj hhead)
          simp only [Option.map_some, Option.bind_some, bind_apply, List.cons_append,
            readGiven_eq_none (hhead _), Option.bind_none]
          rfl
  · have hnone : ∀ {whole : List Token}, stop ∉ whole → readClosed stop parser whole = none := by
      intro whole hwhole
      rw [readClosed, bind_apply]
      cases hparse : parser whole with
      | none => rfl
      | some result =>
          have hhead : result.2.head? ≠ some stop := fun hhead =>
            hwhole ((hparser.suffix hparse).subset (List.mem_of_head? hhead))
          rw [Option.bind_some, bind_apply, readGiven_eq_none hhead]
          rfl
    have happend : stop ∉ input ++ more := by
      rw [List.mem_append, not_or]
      exact ⟨hmem, hmore⟩
    rw [hnone hmem, hnone happend]
    rfl

end StopsAt

end TcpMonitor.TextParser
