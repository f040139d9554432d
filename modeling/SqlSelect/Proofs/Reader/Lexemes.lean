import Mathlib.Data.List.SplitBy
import SqlSelect.Proofs.Quoting.Containment
import SqlSelect.Proofs.Reader.Grammar
namespace SqlSelect

/-! The text of an expression is cut into lexemes: quoted pieces, words, and marks.
A word or a mark goes on as far as it can.  Numbers are words as well, since
only what comes after a word tells whether it is a number or a function.
-/

open Scan

variable {d : Dialect} {mark : Char} {t u : Token} {ts : Tokens}

/-- The marks of expressions. -/
def Symbol.ofExpressions : List Symbol :=
  [.openParen, .closeParen, .comma, .dot, .star, .equal, .notEqual, .greaterEqual, .greater,
    .lessEqual, .less, .plus, .minus, .slash, .bars]

/-- A character of marks that can have two characters. -/
def Symbol.isPairChar (c : Char) : Bool := ['=', '<', '>', '|'].contains c

namespace Piece

def char? : Piece → Option Char
  | .plain c => some c
  | .quoted _ _ => none

/-- Whether two pieces side by side belong to one lexeme. -/
def joins : Piece → Piece → Bool
  | .plain a, .plain b =>
      (isNameChar a && isNameChar b) || (Symbol.isPairChar a && Symbol.isPairChar b) ||
        (a == '-' && b.isDigit)
  | _, _ => false

end Piece

namespace Token

/-- The lexeme that is read where a token is written. -/
def lexeme? : Token → Option Token
  | .space => none
  | .int value => some (.bare (String.ofList (intText value.toInt)))
  | t => some t

/-- The mark or word that a text is. -/
def ofText (text : List Char) : Token :=
  match Symbol.ofExpressions.find? (·.chars = text),
    Keyword.ofExpressions.find? (·.chars = text) with
  | some s, _ => .symbol s
  | none, some k => .keyword k
  | none, none => .bare (String.ofList text)

/-- The lexeme made of some pieces, unless they are a space. -/
def ofPieces? : List Piece → Option Token
  | [.quoted mark contents] =>
      some (if mark = '\'' then .string (String.ofList contents)
        else .ident (String.ofList contents))
  | pieces =>
      if pieces = [.plain ' '] then none else some (ofText (pieces.filterMap Piece.char?))

end Token

def Tokens.lexemes (ts : Tokens) : Tokens := ts.filterMap Token.lexeme?

/-- The lexemes of a text, unless it ends inside quotes. -/
def lex? (mark : Char) (text : List Char) : Option Tokens :=
  (scan? mark text).map fun pieces => (pieces.splitBy Piece.joins).filterMap Token.ofPieces?

/-- A token that an expression is written with. -/
inductive Token.Readable : Token → Prop where
  | keyword {k : Keyword} (known : k ∈ Keyword.ofExpressions) : Readable (.keyword k)
  | symbol {s : Symbol} (known : s ∈ Symbol.ofExpressions) : Readable (.symbol s)
  | space : Readable .space
  | ident (name : String) : Readable (.ident name)
  | string (contents : String) : Readable (.string contents)
  | int (value : Int64) : Readable (.int value)
  | bare {part : String} (word : IsFunctionWord part) : Readable (.bare part)

theorem Token.readable_operator (op : Operator) : op.token.Readable := by
  cases op with
  | like => exact .keyword (by decide)
  | _ => exact .symbol (by decide)

theorem Symbol.not_isDigit_of_mem_chars {s : Symbol} {c : Char} (member : c ∈ s.chars) :
    c.isDigit = false := by
  by_contra digit
  have word := isWordChar_of_isDigit (by simpa using digit)
  exact Bool.false_ne_true ((Symbol.apart_of_mem_chars member).1.symm.trans word)

/-- The last character of a number is a digit. -/
theorem isDigit_of_mem_getLast?_intText {i : Int} {c : Char} (last : c ∈ (intText i).getLast?) :
    c.isDigit = true := by
  have digits : c ∈ (natText i.natAbs).getLast? := by
    unfold intText at last
    split at last
    · obtain ⟨first, rest, text⟩ := List.exists_cons_of_ne_nil (natText_ne_nil i.natAbs)
      rw [text] at last ⊢
      simpa using last
    · exact last
  exact Nat.isDigit_of_mem_toDigits (by decide) (by decide) (List.mem_of_mem_getLast? digits)

namespace Token

theorem ofText_keyword {k : Keyword} (known : k ∈ Keyword.ofExpressions) :
    ofText k.chars = .keyword k := by
  have every : ∀ k ∈ Keyword.ofExpressions, ofText k.chars = .keyword k := by decide
  exact every k known

theorem ofText_symbol {s : Symbol} (known : s ∈ Symbol.ofExpressions) :
    ofText s.chars = .symbol s := by
  have every : ∀ s ∈ Symbol.ofExpressions, ofText s.chars = .symbol s := by decide
  exact every s known

theorem ofText_bare {text : List Char} (noSymbol : ∀ s : Symbol, s.chars ≠ text)
    (noKeyword : ∀ k ∈ Keyword.ofExpressions, k.chars ≠ text) :
    ofText text = .bare (String.ofList text) := by
  have symbols : Symbol.ofExpressions.find? (·.chars = text) = none :=
    List.find?_eq_none.mpr fun s _ => by simpa using noSymbol s
  have keywords : Keyword.ofExpressions.find? (·.chars = text) = none :=
    List.find?_eq_none.mpr fun k known => by simpa using noKeyword k known
  rw [ofText, symbols, keywords]

theorem ofText_intText (i : Int) :
    ofText (intText i) = .bare (String.ofList (intText i)) := by
  obtain ⟨c, last⟩ := Option.isSome_iff_exists.mp (List.getLast?_isSome.mpr (intText_ne_nil i))
  have digit := isDigit_of_mem_getLast?_intText last
  have member := List.mem_of_mem_getLast? last
  refine ofText_bare (fun s same => ?_) fun k known same => ?_
  · rw [← same] at member
    exact Bool.false_ne_true ((Symbol.not_isDigit_of_mem_chars member).symm.trans digit)
  · have every : ∀ k ∈ Keyword.ofExpressions, k.chars.all (fun c => !c.isDigit) = true := by decide
    rw [← same] at member
    simpa [digit] using List.all_eq_true.mp (every k known) c member

theorem ofText_functionWord {part : String} (word : IsFunctionWord part) :
    ofText part.toList = .bare part := by
  rw [ofText_bare, String.ofList_toList]
  · intro s same
    obtain ⟨c, rest, text⟩ := List.exists_cons_of_ne_nil word.some
    have member : c ∈ part.toList := by
      rw [text]
      exact List.mem_cons_self
    have notName := Symbol.isNameChar_of_mem_chars (same ▸ member)
    exact Bool.false_ne_true (notName.symm.trans (word.word c member))
  · exact fun k known same => word.free k known (String.toList_inj.mp same.symm)

theorem ofPieces?_plain {text : List Char} (notSpace : text ≠ [' ']) :
    ofPieces? (text.map .plain) = some (ofText text) := by
  have other : text.map Piece.plain ≠ [.plain ' '] := fun same => notSpace (by simpa using same)
  have chars : (text.map Piece.plain).filterMap Piece.char? = text := by
    simp [List.filterMap_map, Function.comp_def, Piece.char?]
  have plain : ofPieces? (text.map .plain) = if text.map Piece.plain = [.plain ' '] then none
      else some (ofText ((text.map Piece.plain).filterMap Piece.char?)) := by
    cases text with
    | nil => rfl
    | cons c rest =>
        cases rest with
        | nil => rfl
        | cons _ _ => rfl
  rw [plain, if_neg other, chars]

/-- A token is read back from its pieces. -/
theorem ofPieces?_pieces (single : mark ≠ '\'') (readable : t.Readable) :
    ofPieces? (t.pieces mark) = t.lexeme? := by
  have plain {text : List Char} (solid : ∀ c ∈ text, isDelimiter c = false) :
      ofPieces? (text.map .plain) = some (ofText text) := by
    refine ofPieces?_plain ?_
    rintro rfl
    exact Bool.false_ne_true (solid ' ' List.mem_cons_self).symm
  cases readable with
  | @keyword k known =>
      have solid : ∀ c ∈ k.chars, isDelimiter c = false := fun c member =>
        isDelimiter_of_isPlain (Keyword.isPlain_of_mem_chars member)
      exact (plain solid).trans (congrArg some (ofText_keyword known))
  | @symbol s known =>
      have solid : ∀ c ∈ s.chars, isDelimiter c = false := fun c member =>
        (Symbol.apart_of_mem_chars member).2
      exact (plain solid).trans (congrArg some (ofText_symbol known))
  | space => rfl
  | ident name => simp [pieces, ofPieces?, single, lexeme?]
  | string contents => simp [pieces, ofPieces?, lexeme?]
  | int value =>
      have solid : ∀ c ∈ intText value.toInt, isDelimiter c = false := fun c member =>
        isDelimiter_of_isPlain (isPlain_of_mem_intText member)
      exact (plain solid).trans (congrArg some (ofText_intText value.toInt))
  | @bare part word =>
      have solid : ∀ c ∈ part.toList, isDelimiter c = false := fun c member =>
        isDelimiter_of_isNameChar (word.word c member)
      exact (plain solid).trans (congrArg some (ofText_functionWord word))

def isOperator : Token → Bool
  | .symbol .openParen | .symbol .closeParen | .symbol .comma | .symbol .dot => false
  | .symbol _ => true
  | _ => false

/-- After an operator comes a space. -/
def Apart (t u : Token) : Prop := t.isOperator = true → u = .space

/-- The pieces of a token belong to one lexeme. -/
theorem isChain_pieces (readable : t.Readable) :
    (t.pieces mark).IsChain fun a b => a.joins b = true := by
  have names {text : List Char} (word : ∀ c ∈ text, isNameChar c = true) :
      (text.map Piece.plain).IsChain fun a b => a.joins b = true := by
    refine (List.pairwise_of_forall_mem_list fun a first b second => ?_).isChain
    obtain ⟨c, here, rfl⟩ := List.mem_map.mp first
    obtain ⟨c', there, rfl⟩ := List.mem_map.mp second
    simp [Piece.joins, word c here, word c' there]
  have digits (n : Nat) : ((natText n).map Piece.plain).IsChain fun a b => a.joins b = true :=
    names fun c member => isNameChar_of_isWordChar (isWordChar_of_mem_natText member)
  cases readable with
  | @keyword k _ =>
      exact names fun c member => isNameChar_of_isWordChar (k.isWordChar_of_mem_chars member)
  | symbol known =>
      have every : ∀ s ∈ Symbol.ofExpressions,
          (s.chars.map Piece.plain).IsChain fun a b => a.joins b = true := by decide
      exact every _ known
  | space => exact .singleton _
  | ident name => exact .singleton _
  | string contents => exact .singleton _
  | int value =>
      change ((intText value.toInt).map Piece.plain).IsChain fun a b => a.joins b = true
      unfold intText
      split
      · obtain ⟨c, rest, text⟩ := List.exists_cons_of_ne_nil (natText_ne_nil value.toInt.natAbs)
        have chain := digits value.toInt.natAbs
        have digit : c.isDigit = true :=
          Nat.isDigit_of_mem_toDigits (by decide) (by decide)
            (show c ∈ natText value.toInt.natAbs by rw [text]; exact List.mem_cons_self)
        rw [text] at chain ⊢
        exact List.isChain_cons_cons.mpr ⟨by simp [Piece.joins, digit], chain⟩
      · exact digits _
  | bare word => exact names word.word

theorem pieces_ne_nil (readable : t.Readable) : t.pieces mark ≠ [] := by
  cases readable with
  | @keyword k _ => simpa [pieces, chars] using k.chars_ne_nil
  | @symbol s _ => simpa [pieces, chars] using s.chars_ne_nil
  | int value => simpa [pieces, chars] using intText_ne_nil value.toInt
  | bare word => simpa [pieces, chars] using word.some
  | space => exact List.cons_ne_nil _ _
  | ident name => exact List.cons_ne_nil _ _
  | string contents => exact List.cons_ne_nil _ _

/-- Only words and values have characters of words. -/
theorem isContent_of_isNameChar {c : Char} (member : .plain c ∈ t.pieces mark)
    (name : isNameChar c = true) : t.isContent = true := by
  cases t with
  | symbol s =>
      have here : c ∈ s.chars := by simpa [pieces, chars] using member
      exact absurd name (by simp [Symbol.isNameChar_of_mem_chars here])
  | space =>
      obtain rfl : c = ' ' := by simpa [pieces, chars] using member
      exact absurd name (by decide)
  | omitted hint => cases member
  | _ => rfl

/-- Only an operator ends with a character that the next one could go on from. -/
theorem isOperator_of_last {c : Char} (readable : t.Readable)
    (last : .plain c ∈ (t.pieces mark).getLast?)
    (opens : Symbol.isPairChar c = true ∨ c = '-') : t.isOperator = true := by
  have notName : isNameChar c = false := by
    rcases opens with pair | rfl
    · have every : ['=', '<', '>', '|'].all (fun c => !isNameChar c) = true := by decide
      simpa using List.all_eq_true.mp every c (List.contains_iff_mem.mp pair)
    · rfl
  have names (name : isNameChar c = true) : t.isOperator = true :=
    absurd name (by simp [notName])
  cases readable with
  | @keyword k _ =>
      have here : c ∈ k.chars := by simpa [pieces, chars] using List.mem_of_mem_getLast? last
      exact names (isNameChar_of_isWordChar (k.isWordChar_of_mem_chars here))
  | @symbol s _ =>
      have every : (s.chars.any fun c => Symbol.isPairChar c || c == '-') = true →
          (Token.symbol s).isOperator = true := by cases s <;> decide
      have here : c ∈ s.chars := by simpa [pieces, chars] using List.mem_of_mem_getLast? last
      exact every (List.any_eq_true.mpr ⟨c, here, by simpa using opens⟩)
  | space =>
      obtain rfl : ' ' = c := by simpa [pieces, chars] using last
      exact absurd opens (by decide)
  | ident name => cases last
  | string contents => cases last
  | int value =>
      have final : c ∈ (intText value.toInt).getLast? := by simpa [pieces, chars] using last
      have digit := isDigit_of_mem_getLast?_intText final
      exact names (isNameChar_of_isWordChar (isWordChar_of_isDigit digit))
  | @bare part word =>
      have here : c ∈ part.toList := by simpa [pieces, chars] using List.mem_of_mem_getLast? last
      exact names (word.word c here)

/-- What comes after a token is not joined to it. -/
theorem joins_eq_false (readable : t.Readable) (neighbours : Neighbours False t u)
    (apart : t.Apart u) {a b : Piece} (last : a ∈ (t.pieces mark).getLast?)
    (first : b ∈ (u.pieces mark).head?) : a.joins b = false := by
  by_contra joined
  cases a with
  | quoted mark contents => exact joined rfl
  | plain c =>
      cases b with
      | quoted mark contents => exact joined rfl
      | plain c' =>
          simp only [Piece.joins, Bool.not_eq_false, Bool.or_eq_true, Bool.and_eq_true,
            beq_iff_eq] at joined
          have space (opens : Symbol.isPairChar c = true ∨ c = '-') : c' = ' ' := by
            rw [apart (isOperator_of_last readable last opens)] at first
            simpa [pieces, chars, eq_comm] using first
          rcases joined with (⟨left, right⟩ | ⟨left, right⟩) | ⟨left, right⟩
          · exact neighbours.1 ⟨isContent_of_isNameChar (List.mem_of_mem_getLast? last) left,
              isContent_of_isNameChar (List.mem_of_mem_head? first) right⟩
          · rw [space (.inl left)] at right
            exact absurd right (by decide)
          · rw [space (.inr left)] at right
            exact absurd right (by decide)

end Token

namespace Tokens

/-- What expressions are written with: words, values and brackets, and operators
    between spaces. -/
inductive Legible : Tokens → Prop where
  | nothing : Legible []
  | token {t : Token} (readable : t.Readable) (plain : t.isOperator = false) : Legible [t]
  | operator (op : Operator) : Legible [.space, op.token, .space]
  | append {x y : Tokens} (first : Legible x) (rest : Legible y) : Legible (x ++ y)

namespace Legible

theorem readable (legible : ts.Legible) : ∀ t ∈ ts, t.Readable := by
  induction legible with
  | nothing => nofun
  | token readable _ => exact List.forall_mem_singleton.mpr readable
  | operator op =>
      exact List.forall_mem_cons.mpr ⟨.space, List.forall_mem_cons.mpr
        ⟨Token.readable_operator op, List.forall_mem_singleton.mpr .space⟩⟩
  | append _ _ first rest => exact List.forall_mem_append.mpr ⟨first, rest⟩

theorem apart (legible : ts.Legible) :
    ts.IsChain Token.Apart ∧ ∀ t ∈ ts.getLast?, t.isOperator = false := by
  induction legible with
  | nothing => exact ⟨.nil, nofun⟩
  | token _ plain => exact ⟨.singleton _, fun u last => Option.some.inj last ▸ plain⟩
  | operator op =>
      have before : Token.space.Apart op.token := nofun
      have after : op.token.Apart .space := fun _ => rfl
      exact ⟨.cons_cons before (.cons_cons after (.singleton _)), fun u last =>
        Option.some.inj last ▸ rfl⟩
  | append _ _ first rest =>
      refine ⟨List.isChain_append.mpr ⟨first.1, rest.1, fun t last u _ operator => ?_⟩,
        fun t last => ?_⟩
      · exact absurd operator (by simp [first.2 t last])
      · rcases Place.Bounded.mem_getLast?_append last with last | last
        · exact first.2 t last
        · exact rest.2 t last

/-- Cutting the pieces into lexemes gives back the pieces of each token. -/
theorem splitBy_pieces (legible : ts.Legible) (neighbours : ts.IsChain (Token.Neighbours False)) :
    (ts.flatMap (Token.pieces mark)).splitBy Piece.joins = ts.map (Token.pieces mark) := by
  have readable := legible.readable
  rw [List.flatMap_def]
  refine List.splitBy_flatten ?_ ?_ ?_
  · intro empty
    obtain ⟨t, member, none⟩ := List.mem_map.mp empty
    exact Token.pieces_ne_nil (readable t member) none
  · exact List.forall_mem_map.mpr fun t member => Token.isChain_pieces (readable t member)
  · rw [List.isChain_map, List.isChain_iff_getElem]
    intro i next
    have here := readable _ (List.getElem_mem (Nat.lt_of_succ_lt next))
    have there := readable _ (List.getElem_mem next)
    exact ⟨Token.pieces_ne_nil here, Token.pieces_ne_nil there,
      Token.joins_eq_false here (List.isChain_iff_getElem.mp neighbours i next)
        (List.isChain_iff_getElem.mp legible.apart.1 i next)
        (List.getLast?_eq_getLast_of_ne_nil _) (List.head?_eq_some_head _)⟩

theorem vetted (quoting : d.mark? = some mark) (legible : ts.Legible) :
    ∀ t ∈ ts, t.Vetted mark := by
  intro t member
  cases legible.readable t member with
  | bare word =>
      intro c here
      have solid := isDelimiter_of_isNameChar (word.word c here)
      exact ⟨ne_of_not_isDelimiter (d.isDelimiter_mark quoting) solid,
        ne_of_not_isDelimiter rfl solid⟩
  | _ => trivial

theorem omitted?_eq_none (legible : ts.Legible) : ∀ t ∈ ts, t.omitted? = none := by
  intro t member
  cases legible.readable t member <;> rfl

/-- The text of legible tokens is cut into their lexemes. -/
theorem lex?_chars (quoting : d.mark? = some mark) (legible : ts.Legible)
    (neighbours : ts.IsChain (Token.Neighbours False)) :
    lex? mark (ts.chars d) = some ts.lexemes := by
  have scanned := scan?_chars quoting (legible.vetted quoting) legible.omitted?_eq_none neighbours
  have back : ∀ t ∈ ts, Token.ofPieces? (t.pieces mark) = t.lexeme? := fun t member =>
    Token.ofPieces?_pieces (d.mark_ne_single quoting) (legible.readable t member)
  rw [lex?, scanned, Option.map_some, legible.splitBy_pieces neighbours, List.filterMap_map,
    lexemes]
  exact congrArg some (List.filterMap_congr back)

end Legible
end Tokens
end SqlSelect
