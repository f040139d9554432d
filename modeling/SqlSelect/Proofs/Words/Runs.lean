import SqlSelect.Proofs.Outline.Basic
import SqlSelect.Proofs.Text.Plain
namespace SqlSelect

/-! The words of a text are its maximal runs of word characters.  Letters beyond the
ASCII ones may count or not; the space and the marks of a statement never do.
-/

/-- Which characters count as part of a word. -/
structure WordClass where
  contains : Char → Bool
  ascii : ∀ c, Keyword.isWordChar c = true → contains c = true
  space : contains ' ' = false
  quote : contains '\'' = false
  symbol : ∀ s : Symbol, ∀ c ∈ s.chars, contains c = false

namespace WordClass

def asciiOnly : WordClass where
  contains := Keyword.isWordChar
  ascii _ word := word
  space := rfl
  quote := rfl
  symbol _ _ member := (Symbol.apart_of_mem_chars member).1

variable (w : WordClass)

/-- The words of a text: what is left when it is cut at all other characters. -/
def runs (text : List Char) : List (List Char) :=
  (text.splitOnP fun c => !w.contains c).filter (!·.isEmpty)

variable {w}

@[simp] theorem runs_nil : w.runs [] = [] := rfl

theorem runs_append_cons {c : Char} (apart : w.contains c = false) (left right : List Char) :
    w.runs (left ++ c :: right) = w.runs left ++ w.runs right := by
  rw [runs, List.splitOnP_append_cons left right (by simp [apart]), List.filter_append]
  rfl

theorem runs_cons {c : Char} (apart : w.contains c = false) (rest : List Char) :
    w.runs (c :: rest) = w.runs rest :=
  runs_append_cons apart [] rest

theorem runs_append_of_head {left right : List Char}
    (apart : ∀ c ∈ right.head?, w.contains c = false) :
    w.runs (left ++ right) = w.runs left ++ w.runs right := by
  cases right with
  | nil => simp
  | cons c rest => rw [runs_append_cons (apart c rfl), runs_cons (apart c rfl)]

theorem runs_of_apart {text : List Char} (apart : ∀ c ∈ text, w.contains c = false) :
    w.runs text = [] := by
  induction text with
  | nil => rfl
  | cons c rest ih =>
      rw [runs_cons (apart c List.mem_cons_self)]
      exact ih fun d member => apart d (List.mem_cons_of_mem c member)

theorem runs_of_word {text : List Char} (some : text ≠ [])
    (word : ∀ c ∈ text, w.contains c = true) : w.runs text = [text] := by
  rw [runs, List.splitOnP_eq_singleton fun c member => by simp [word c member]]
  cases text with
  | nil => contradiction
  | cons c rest => rfl

theorem runs_append_of_last {left right : List Char}
    (apart : ∀ c ∈ left, w.contains c = false) :
    w.runs (left ++ right) = w.runs right := by
  induction left with
  | nil => rfl
  | cons c rest ih =>
      rw [List.cons_append, runs_cons (apart c List.mem_cons_self)]
      exact ih fun d member => apart d (List.mem_cons_of_mem c member)

end WordClass

/-- The words that a token is written with. -/
def Token.words (w : WordClass) : Token → List (List Char)
  | .keyword k => [k.chars]
  | .ident name => [name.toList]
  | .string contents => [contents.toList]
  | .int value => [natText value.toInt.natAbs]
  | .count value => [natText value.toNat]
  | .double value => w.runs value.text
  | .bare part => [part.toList]
  | .verbatim text => [text.toList]
  | .symbol _ | .space | .omitted _ => []

/-- The caller's text in a token is one word. -/
def Token.IsWord (w : WordClass) : Token → Prop
  | .ident text | .string text | .bare text | .verbatim text =>
      text.toList ≠ [] ∧ ∀ c ∈ text.toList, w.contains c = true
  | _ => True

namespace Token

variable {w : WordClass}

theorem chars_string_of_isWord {contents : String} (word : (Token.string contents).IsWord w) :
    (Token.string contents).chars .generic = '\'' :: (contents.toList ++ ['\'']) := by
  have absent : '\'' ∉ contents.toList := fun member =>
    Bool.false_ne_true (w.quote.symm.trans (word.2 '\'' member))
  rw [chars, Quoted.wrap, Quoted.escape_of_not_mem absent]

/-- The words in the text of a token are those that it is written with. -/
theorem runs_chars {t : Token} (word : t.IsWord w) : w.runs (t.chars .generic) = t.words w := by
  have digits (n : Nat) : w.runs (natText n) = [natText n] :=
    WordClass.runs_of_word (natText_ne_nil n) fun c member =>
      w.ascii c (isWordChar_of_mem_natText member)
  cases t with
  | keyword k =>
      exact WordClass.runs_of_word k.chars_ne_nil fun c member =>
        w.ascii c (k.isWordChar_of_mem_chars member)
  | symbol s => exact WordClass.runs_of_apart (w.symbol s)
  | space => exact WordClass.runs_cons w.space []
  | ident name => exact WordClass.runs_of_word word.1 word.2
  | string contents =>
      rw [chars_string_of_isWord word, WordClass.runs_cons w.quote,
        WordClass.runs_append_cons w.quote, WordClass.runs_of_word word.1 word.2]
      rfl
  | int value =>
      have minus : w.contains '-' = false := w.symbol .minus '-' (by decide)
      rw [chars, intText]
      split
      · rw [WordClass.runs_cons minus, digits]
        rfl
      · exact digits _
  | count value => exact digits _
  | double value => rfl
  | bare part => exact WordClass.runs_of_word word.1 word.2
  | verbatim text => exact WordClass.runs_of_word word.1 word.2
  | omitted hint => rfl

theorem ne_space_of_mem_chars {t : Token} (word : t.IsWord w) (notSpace : t ≠ .space) {c : Char}
    (member : c ∈ t.chars .generic) : c ≠ ' ' := by
  have plain (delimiter : isDelimiter c = false) : c ≠ ' ' := by
    rintro rfl
    cases delimiter
  have text {cs : List Char} (contents : ∀ c ∈ cs, w.contains c = true) (member : c ∈ cs) :
      c ≠ ' ' := by
    rintro rfl
    exact Bool.false_ne_true (w.space.symm.trans (contents ' ' member))
  cases t with
  | keyword k => exact plain (isDelimiter_of_isPlain (Keyword.isPlain_of_mem_chars member))
  | symbol s => exact plain (Symbol.apart_of_mem_chars member).2
  | space => contradiction
  | ident name => exact text word.2 member
  | string contents =>
      rw [chars_string_of_isWord word] at member
      rcases List.mem_cons.mp member with rfl | member
      · decide
      · rcases List.mem_append.mp member with member | member
        · exact text word.2 member
        · rw [List.mem_singleton.mp member]
          decide
  | int value => exact plain (isDelimiter_of_isPlain (isPlain_of_mem_intText member))
  | count value => exact plain (isDelimiter_of_isPlain (isPlain_of_mem_natText member))
  | double value => exact plain (isDelimiter_of_isPlain (Binary64.isPlain_of_mem_text member))
  | bare part => exact text word.2 member
  | verbatim part => exact text word.2 member
  | omitted hint => cases member

theorem chars_ne_nil {t : Token} (word : t.IsWord w) (seen : t.omitted? = none) :
    t.chars .generic ≠ [] := by
  cases t with
  | keyword k => exact k.chars_ne_nil
  | symbol s => exact s.chars_ne_nil
  | space => nofun
  | ident name => exact word.1
  | string contents => nofun
  | int value => exact intText_ne_nil _
  | count value => exact natText_ne_nil _
  | double value => exact value.text_ne_nil
  | bare part => exact word.1
  | verbatim text => exact word.1
  | omitted hint => cases seen

theorem isWord_of_quiet {t : Token} (quiet : t.isContent = false) : t.IsWord w := by
  cases t <;> trivial

theorem words_of_quiet {t : Token} (quiet : t.isContent = false) : t.words w = [] := by
  cases t <;> first | rfl | cases quiet

theorem contains_eq_false_of_mem_chars {t : Token} (quiet : t.isContent = false) {c : Char}
    (member : c ∈ t.chars .generic) : w.contains c = false := by
  cases t with
  | symbol s => exact w.symbol s c member
  | space =>
      rw [List.mem_singleton.mp member]
      exact w.space
  | omitted hint => cases member
  | _ => cases quiet

end Token
end SqlSelect
