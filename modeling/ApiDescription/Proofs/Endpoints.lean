import ApiDescription.Proofs.Layout
import ApiDescription.Proofs.RoundTrip

/-!
# Addresses in a client

A client lists the addresses of its service between quotes, as they are.  An address in which every
character stands for itself is read back as it was given, however many there are; a quote in an
address ends its literal.
-/

namespace ApiDescription

open Lexer Literal

namespace Lexer

variable {openers rest : List Char} {tokens : List Token}

/-- A line may end inside brackets. -/
theorem divides_newline {opener : Char} (divided : Divides (opener :: openers) rest tokens) :
    Divides (opener :: openers) ('\n' :: rest) tokens := by
  intro lex fuel enough
  cases fuel with
  | zero => simp at enough
  | succ fuel =>
    have later := divided lex fuel (by simpa using enough)
    rw [← later]
    rfl

theorem divides_lineEnd : Divides [] ['\n'] [] := by
  intro lex fuel enough
  cases fuel with
  | zero => simp at enough
  | succ fuel => rfl

theorem unescape_of_plain {characters : List Char}
    (plain : ∀ character ∈ characters, character ≠ '\\') (gathered : List Char) {fuel : Nat}
    (enough : characters.length < fuel) :
    unescape gathered fuel characters = some (gathered.reverse ++ characters) := by
  induction characters generalizing gathered fuel with
  | nil =>
    obtain _ | fuel := fuel
    · simp at enough
    simp [unescape]
  | cons first others ih =>
    obtain _ | fuel := fuel
    · omega
    rw [List.forall_mem_cons] at plain
    rw [Text.unescape_plain plain.1, ih plain.2 _ (by simpa using enough)]
    simp

/-- A text whose characters stand for themselves may be put between quotes as it is. -/
theorem divides_plain {value : String}
    (plain : ∀ character ∈ value.toList, IsPlain '\x27' character)
    (divided : Divides openers (',' :: rest) tokens) :
    Divides openers ('\x27' :: (value.toList ++ '\x27' :: ',' :: rest))
      (.text value :: tokens) := by
  have found : stringBody '\x27' false [] (value.toList ++ '\x27' :: ',' :: rest) =
      some (value.toList, ',' :: rest) := by
    rw [stringBody_append_plain plain, stringBody_quote (.inr rfl)]
    simp
  have read := Text.readBody_of_stringBody found fun second third more opened => by
    generalize value.toList = characters at plain opened
    cases characters with
    | nil =>
      cases opened
      rfl
    | cons first others =>
      have same : first = second := (List.cons.inj opened).1
      simp [← same, (plain first (by simp)).1]
  have unescaped : bodyText false value.toList = some value := by
    rw [bodyText, if_neg (by decide),
      unescape_of_plain (fun character member => (plain character member).2.1) []
        (Nat.lt_succ_self _)]
    simp
  exact divides_text (.inr rfl) read unescaped (by simp; omega) divided

end Lexer

namespace Client

open Code (Writer Writing)

open Code.Writing (Emits)

variable {addresses : List String}

def addressLines : List String → String
  | [] => ""
  | address :: rest => "  \x27" ++ address ++ "\x27,\n" ++ addressLines rest

theorem render_endpoints (addresses : List String) :
    (endpoints addresses).render =
      .ok ("BASE_URL = " ++ ("[\n" ++ addressLines addresses ++ "]\n")) := by
  have loop : Emits Writer.moduleTab 1 (forIn addresses PUnit.unit fun address _ => do
      Writing.writeLine ("'" ++ address ++ "',")
      pure (.yield PUnit.unit)) () (addressLines addresses) := by
    induction addresses with
    | nil => exact .pure _
    | cons address rest ih =>
      have lines : addressLines (address :: rest) = Text.repeated Writer.moduleTab 1 ++
          ("'" ++ address ++ "',") ++ "\n" ++ addressLines rest :=
        String.toList_inj.mp (by simp [addressLines, Text.repeated, Writer.moduleTab])
      simp only [List.forIn_cons, bind_assoc, pure_bind, lines]
      exact (Emits.writeLine _).bind ih
  have whole : Emits Writer.moduleTab 0 (endpoints addresses) () _ :=
    (Emits.writeLine "BASE_URL = [").bind
      ((Emits.block (loop.bind (.pure _))).bind (Emits.writeLine "]"))
  rw [whole.render]
  exact congrArg _ (String.toList_inj.mp (by simp [Text.repeated]))

/-- The addresses are read as the items of a list, each with a comma behind it. -/
theorem exists_divides (plain : ∀ address ∈ addresses, ∀ character ∈ address.toList,
      IsPlain '\x27' character) :
    ∃ tokens, Divides ['['] ((addressLines addresses).toList ++ [']', '\n']) tokens ∧
      ∀ rest, Parser.Separated "]" rest (addresses.map .text) (tokens ++ rest) := by
  induction addresses with
  | nil => exact ⟨[.mark "]"], lexes_closing .square divides_lineEnd, fun _ => .nil⟩
  | cons address rest ih =>
    rw [List.forall_mem_cons] at plain
    obtain ⟨tokens, divided, separated⟩ := ih plain.2
    refine ⟨.text address :: .mark "," :: tokens, ?_,
      fun others => .next (.text address) (separated others)⟩
    have line := divides_plain plain.1 (lexes_comma (divides_newline divided))
    simpa [addressLines] using lexes_blank (lexes_blank line)

theorem clean_addressLines (clean : ∀ address ∈ addresses, ∀ character ∈ address.toList,
      character ≠ '\r' ∧ character ≠ Char.ofNat 0) :
    ∀ character ∈ (addressLines addresses).toList, character ≠ '\r' ∧ character ≠ Char.ofNat 0 := by
  induction addresses with
  | nil => simp [addressLines]
  | cons address rest ih =>
    rw [List.forall_mem_cons] at clean
    simp only [addressLines, String.toList_append, List.forall_mem_append]
    exact ⟨⟨⟨by simp, clean.1⟩, by simp⟩, ih clean.2⟩

/-- The list of the addresses is an expression, and its items are the addresses, if every character
of them stands for itself between quotes. -/
theorem endpoints_parse (plain : ∀ address ∈ addresses, ∀ character ∈ address.toList,
      Literal.IsPlain '\x27' character ∧ character ≠ '\r' ∧ character ≠ Char.ofNat 0) :
    ∃ list, (endpoints addresses).render = .ok ("BASE_URL = " ++ list) ∧
      Expr.parse list = .ok (.list (addresses.map .text) .load) := by
  refine ⟨_, render_endpoints addresses, ?_⟩
  obtain ⟨tokens, divided, separated⟩ := exists_divides fun address member character inside =>
    (plain address member character inside).1
  have clean : ∀ character ∈ ("[\n" ++ addressLines addresses ++ "]\n").toList,
      character ≠ '\r' ∧ character ≠ Char.ofNat 0 := by
    simp only [String.toList_append, List.forall_mem_append]
    exact ⟨⟨by simp, clean_addressLines fun address member character inside =>
      (plain address member character inside).2⟩, by simp⟩
  have lexed : Lexer.tokens ("[\n" ++ addressLines addresses ++ "]\n") =
      some (.mark "[" :: tokens) := by
    have opened := lexes_opening .square
      (by decide : ([] : List Char).length < maxNesting) (divides_newline divided)
    rw [tokens_eq_readTokens clean
      ⟨'[', '\n' :: ((addressLines addresses).toList ++ [']', '\n']), by simp, rfl⟩]
    simpa [Bracket.opening, Bracket.openingMark] using opened _ _ (Nat.lt_succ_self _)
  have bare : (Expr.list (addresses.map .text) .load).Bare .readable := by
    refine ⟨rfl, Expr.bareAll_iff.mpr fun tree member => ?_⟩
    obtain ⟨address, -, rfl⟩ := List.mem_map.mp member
    trivial
  have read (depth : Nat) : Expr.ofTokens? (depth + 3) (.mark "[" :: tokens) =
      some (.list (addresses.map .text) .load) := by
    have starts : Parser.Starts 14 (.mark "[" :: tokens) := ⟨_, _, rfl, by decide⟩
    have reads : Parser.Reads (Parser.rules (depth + 2)) 1 (.mark "[" :: tokens)
        (Expr.list (addresses.map .text) .load).unfolded := by
      have all : ∀ tree ∈ addresses.map Expr.text, Parser.Item (Parser.rules (depth + 2)) tree := by
        intro tree member
        have bareItem := Expr.bareAll_iff.mp bare.2 tree member
        obtain ⟨address, -, rfl⟩ := List.mem_map.mp member
        exact (Parser.parses (.text address) bareItem (depth + 1) (by simp [Expr.tokens])).item
          bareItem
      refine Parser.Reads.loosenTo (Nat.le_refl 13) (starts.mono (by decide))
        (Parser.Trails.reads ?_) (Nat.le_refl 1) (by decide)
      refine .atom starts fun rest _ => ?_
      simp [Parser.atom, Expr.unfolded, Parser.run_bracketed (separated rest) all]
    rw [Expr.ofTokens?_of_reads (starts.mono (by decide)) reads, Expr.foldSigns_unfolded _ bare]
  obtain ⟨depth, long⟩ := Nat.exists_eq_succ_of_ne_zero
    (show ("[\n" ++ addressLines addresses ++ "]\n").length ≠ 0 by simp)
  rw [Expr.parse, lexed, Option.bind_some, long, read]

/-- Neither a double quote nor a sharp ends the literal of an address, and an address may be
empty. -/
theorem sharp_endpoints_parse :
    ∃ list, (endpoints ["http://a/\"#", ""]).render = .ok ("BASE_URL = " ++ list) ∧
      Expr.parse list = .ok (.list [.text "http://a/\"#", .text ""] .load) :=
  endpoints_parse (by simp [Literal.IsPlain])

/-- A quote in an address ends its literal, and what is written is no expression. -/
theorem quoted_endpoint_unreadable :
    ¬ ∃ list, (endpoints ["'"]).render = .ok ("BASE_URL = " ++ list) ∧
      Expr.parse list = .ok (.list [.text "'"] .load) := by
  rintro ⟨list, rendered, parsed⟩
  have same := (render_endpoints ["'"]).symm.trans rendered
  simp only [Except.ok.injEq, String.append_right_inj] at same
  have spelled :
      list.toList = ['[', '\n', ' ', ' ', '\x27', '\x27', '\x27', ',', '\n', ']', '\n'] := by
    simp [← same, addressLines]
  have unreadable : Expr.parse list = .error .badExpression := by
    refine Expr.parse_of_undivided (by simp [spelled]) ⟨_, _, spelled, rfl⟩ ?_
    rw [spelled]
    intro lex fuel _
    rcases fuel with _ | _ | _ | _ | _ | fuel <;> rfl
  cases unreadable.symm.trans parsed

end Client

end ApiDescription
