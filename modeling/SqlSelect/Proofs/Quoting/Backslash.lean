import Mathlib.Algebra.Group.Nat.Even
import Mathlib.Data.List.DropRight
import SqlSelect.Literal
namespace SqlSelect.Backslash

/-!
# Literals read with backslashes

A reader may give the backslash a meaning in a string literal, as MySQL does unless
it is told not to: a backslash and the character after it stand for one character,
so that a quotation mark after a backslash does not end the literal.  Literals are
written without regard to this.  Such a reader finds their end when the backslashes
before a quotation mark come in pairs, and their contents when every backslash is
one that it keeps.
-/

/-- The characters before which a backslash is kept, because patterns give them a
    meaning. -/
def isWildcard (c : Char) : Bool := c == '%' || c == '_'

/-- What a backslash and the character after it stand for. -/
def meaning (c : Char) : List Char :=
  if isWildcard c then ['\\', c]
  else match c with
    | '0' => ['\x00']
    | 'b' => ['\x08']
    | 'n' => ['\n']
    | 'r' => ['\r']
    | 't' => ['\t']
    | 'Z' => ['\x1a']
    | _ => [c]

/-- Where a reader is in a literal. -/
inductive Stage where
  | inside
  /-- After a backslash. -/
  | escaping
  /-- After a mark that ends the literal, unless it is doubled. -/
  | closing

/-- Put characters before what is read. -/
def prepend (cs : List Char) (found : List Char × List Char) : List Char × List Char :=
  (cs ++ found.1, found.2)

/-- What is read from a stage on, and the text after the literal. -/
def readFrom? : Stage → List Char → Option (List Char × List Char)
  | .inside, [] | .escaping, [] => none
  | .closing, [] => some ([], [])
  | .inside, c :: rest =>
      if c = '\'' then readFrom? .closing rest
      else if c = '\\' then readFrom? .escaping rest
      else (readFrom? .inside rest).map (prepend [c])
  | .escaping, c :: rest => (readFrom? .inside rest).map (prepend (meaning c))
  | .closing, c :: rest =>
      if c = '\'' then (readFrom? .inside rest).map (prepend ['\'']) else some ([], c :: rest)

/-- The value of the literal at the beginning of a text, and the rest of the text. -/
def read? (text : String) : Option (String × String) :=
  match text.toList with
  | [] => none
  | c :: rest =>
      if c = '\'' then
        (readFrom? .inside rest).map fun found => (String.ofList found.1, String.ofList found.2)
      else none

theorem map_prepend_eq_some_iff {cs value rest : List Char} {o : Option (List Char × List Char)} :
    o.map (prepend cs) = some (value, rest) ↔ ∃ v, o = some (v, rest) ∧ value = cs ++ v := by
  rcases o with _ | ⟨v, after⟩
  · simp
  · simp only [Option.map_some, prepend, Option.some.injEq, Prod.mk.injEq]
    constructor
    · rintro ⟨rfl, rfl⟩
      exact ⟨v, ⟨rfl, rfl⟩, rfl⟩
    · rintro ⟨_, ⟨rfl, rfl⟩, rfl⟩
      exact ⟨rfl, rfl⟩

/-- A character after a mark may be left.  Any other is read, from whatever stage. -/
theorem readFrom?_cons {stage : Stage} {c : Char} {cs value rest : List Char}
    (found : readFrom? stage (c :: cs) = some (value, rest)) :
    stage = .closing ∧ rest = c :: cs ∨ ∃ s v, readFrom? s cs = some (v, rest) := by
  cases stage with
  | inside =>
      rw [readFrom?] at found
      split at found
      · exact .inr ⟨_, _, found⟩
      · split at found
        · exact .inr ⟨_, _, found⟩
        · obtain ⟨v, next, -⟩ := map_prepend_eq_some_iff.mp found
          exact .inr ⟨_, v, next⟩
  | escaping =>
      obtain ⟨v, next, -⟩ := map_prepend_eq_some_iff.mp found
      exact .inr ⟨_, v, next⟩
  | closing =>
      rw [readFrom?] at found
      split at found
      · obtain ⟨v, next, -⟩ := map_prepend_eq_some_iff.mp found
        exact .inr ⟨_, v, next⟩
      · cases found
        exact .inl ⟨rfl, rfl⟩

/-- A literal that is not closed yet takes a part of the text. -/
theorem length_of_readFrom? {stage : Stage} {text value rest : List Char}
    (found : readFrom? stage text = some (value, rest)) :
    rest.length ≤ text.length ∧ (stage ≠ .closing → rest.length < text.length) := by
  induction text generalizing stage value with
  | nil =>
      cases stage with
      | closing => cases found; simp
      | _ => cases found
  | cons c cs ih =>
      rcases readFrom?_cons found with ⟨rfl, rfl⟩ | ⟨s, v, next⟩
      · exact ⟨Nat.le_refl _, fun unclosed => absurd rfl unclosed⟩
      · have shorter : rest.length < (c :: cs).length := Nat.lt_succ_of_le (ih next).1
        exact ⟨Nat.le_of_lt shorter, fun _ => shorter⟩

theorem readFrom?_inside_ne (rest value : List Char) :
    readFrom? .inside rest ≠ some (value, rest) :=
  fun found => Nat.lt_irrefl _ ((length_of_readFrom? found).2 nofun)

/-- The value that is read for some contents, unless the literal does not end where
    they do.  A backslash may stand before them. -/
def valueFrom? : Bool → List Char → Option (List Char)
  | false, [] => some []
  | true, [] => none
  | false, c :: rest =>
      if c = '\\' then valueFrom? true rest else (valueFrom? false rest).map (c :: ·)
  | true, c :: rest => if c = '\'' then none else (valueFrom? false rest).map (meaning c ++ ·)

def Stage.after (backslash : Bool) : Stage := if backslash then .escaping else .inside

/-- After a mark that was meant to be the first of two, the literal ends too early or
    too late. -/
theorem readFrom?_closing_ne (text rest value : List Char) :
    readFrom? .closing (Quoted.escape '\'' text ++ '\'' :: rest) ≠ some (value, rest) := by
  intro found
  induction text generalizing value with
  | nil =>
      obtain ⟨v, next, -⟩ := map_prepend_eq_some_iff.mp found
      exact readFrom?_inside_ne rest v next
  | cons c cs ih =>
      by_cases mark : c = '\''
      · rw [Quoted.escape, if_pos mark] at found
        obtain ⟨v, next, -⟩ := map_prepend_eq_some_iff.mp found
        exact ih v next
      · have early : readFrom? .closing (Quoted.escape '\'' (c :: cs) ++ '\'' :: rest) =
            some ([], Quoted.escape '\'' (c :: cs) ++ '\'' :: rest) := by
          rw [Quoted.escape, if_neg mark, List.cons_append, readFrom?, if_neg mark]
        rw [early] at found
        have same : Quoted.escape '\'' (c :: cs) ++ '\'' :: rest = rest :=
          congrArg Prod.snd (Option.some.inj found)
        have lengths := congrArg List.length same
        rw [List.length_append, List.length_cons] at lengths
        omega

theorem readFrom?_escape {rest : List Char} (apart : rest.head? ≠ some '\'') (backslash : Bool)
    (text value : List Char) :
    readFrom? (.after backslash) (Quoted.escape '\'' text ++ '\'' :: rest) = some (value, rest) ↔
      valueFrom? backslash text = some value := by
  induction text generalizing backslash value with
  | nil =>
      cases backslash with
      | true =>
          refine iff_of_false (fun found => ?_) (Option.some_ne_none value).symm
          obtain ⟨v, next, -⟩ := map_prepend_eq_some_iff.mp found
          exact readFrom?_inside_ne rest v next
      | false =>
          have ends : readFrom? .closing rest = some ([], rest) := by
            cases rest with
            | nil => rfl
            | cons c cs => exact if_neg fun same => apart (congrArg some same)
          have contents : readFrom? (.after false) (Quoted.escape '\'' [] ++ '\'' :: rest) =
              some ([], rest) := ends
          rw [contents, valueFrom?, Option.some.injEq, Option.some.injEq, Prod.mk.injEq]
          exact and_iff_left rfl
  | cons c cs ih =>
      have first (read : List Char) :
          (readFrom? .inside (Quoted.escape '\'' cs ++ '\'' :: rest)).map (prepend read) =
              some (value, rest) ↔
            (valueFrom? false cs).map (read ++ ·) = some value := by
        rw [map_prepend_eq_some_iff, Option.map_eq_some_iff]
        refine exists_congr fun v => and_congr (ih false v) eq_comm
      rw [Quoted.escape]
      cases backslash with
      | true =>
          by_cases mark : c = '\''
          · rw [if_pos mark, valueFrom?, if_pos mark]
            refine iff_of_false (fun found => ?_) (Option.some_ne_none value).symm
            obtain ⟨v, next, -⟩ := map_prepend_eq_some_iff.mp found
            exact readFrom?_closing_ne cs rest v next
          · rw [if_neg mark, valueFrom?, if_neg mark]
            exact first (meaning c)
      | false =>
          by_cases mark : c = '\''
          · subst mark
            exact first ['\'']
          · rw [if_neg mark, List.cons_append]
            by_cases slash : c = '\\'
            · subst slash
              exact ih true value
            · have plain : readFrom? (.after false)
                    (c :: (Quoted.escape '\'' cs ++ '\'' :: rest)) =
                  (readFrom? .inside (Quoted.escape '\'' cs ++ '\'' :: rest)).map (prepend [c]) :=
                (if_neg mark).trans (if_neg slash)
              rw [plain, valueFrom?, if_neg slash]
              exact first [c]

/-- The number of backslashes at the end of a text. -/
def trailing (text : List Char) : Nat := (text.rtakeWhile (· = '\\')).length

theorem trailing_concat (text : List Char) (c : Char) :
    trailing (text ++ [c]) = if c = '\\' then trailing text + 1 else 0 := by
  rw [trailing, List.rtakeWhile_concat]
  by_cases slash : c = '\\' <;> simp [slash, trailing]

/-- The backslashes before every quotation mark of a text, and those at its end, come
    in pairs. -/
def Paired (text : List Char) : Prop :=
  ∀ front back, text = front ++ back → back.head? = none ∨ back.head? = some '\'' →
    Even (trailing front)

/-- The same of a text that goes on from another one. -/
def PairedAfter (seen text : List Char) : Prop :=
  ∀ front back, text = front ++ back → back.head? = none ∨ back.head? = some '\'' →
    Even (trailing (seen ++ front))

theorem pairedAfter_nil (seen : List Char) : PairedAfter seen [] ↔ Even (trailing seen) := by
  constructor
  · intro paired
    simpa using paired [] [] rfl (.inl rfl)
  · intro even front back cut _
    obtain ⟨rfl, rfl⟩ := List.nil_eq_append_iff.mp cut
    simpa using even

theorem pairedAfter_cons (seen : List Char) (c : Char) (rest : List Char) :
    PairedAfter seen (c :: rest) ↔
      (c = '\'' → Even (trailing seen)) ∧ PairedAfter (seen ++ [c]) rest := by
  constructor
  · intro paired
    refine ⟨fun mark => ?_, fun front back cut ends => ?_⟩
    · simpa using paired [] (c :: rest) rfl (.inr (congrArg some mark))
    · simpa using paired (c :: front) back (by rw [cut, List.cons_append]) ends
  · rintro ⟨here, later⟩ front back cut ends
    cases front with
    | nil =>
        obtain rfl : back = c :: rest := cut.symm
        have mark : c = '\'' := by simpa using ends
        simpa using here mark
    | cons first more =>
        obtain ⟨rfl, tail⟩ := List.cons_eq_cons.mp cut
        simpa using later more back tail ends

/-- After an odd number of backslashes the last one still waits for its character. -/
theorem valueFrom?_isSome_iff (seen text : List Char) :
    (∃ value, valueFrom? (decide ¬Even (trailing seen)) text = some value) ↔
      PairedAfter seen text := by
  induction text generalizing seen with
  | nil =>
      rw [pairedAfter_nil]
      by_cases even : Even (trailing seen) <;> simp [even, valueFrom?]
  | cons c rest ih =>
      have next := ih (seen ++ [c])
      rw [trailing_concat] at next
      rw [pairedAfter_cons, ← next]
      by_cases even : Even (trailing seen)
      · by_cases slash : c = '\\'
        · simp [even, slash, valueFrom?, Nat.even_add_one]
        · simp [even, slash, valueFrom?]
      · by_cases mark : c = '\''
        · simp [even, mark, valueFrom?]
        · by_cases slash : c = '\\'
          · simp [even, slash, valueFrom?, Nat.even_add_one]
          · simp [even, mark, slash, valueFrom?]

theorem exists_valueFrom?_iff (text : List Char) :
    (∃ value, valueFrom? false text = some value) ↔ Paired text :=
  valueFrom?_isSome_iff [] text

/-- Every backslash of a text stands before a wildcard. -/
def Kept (text : List Char) : Prop :=
  ∀ front back, text = front ++ '\\' :: back → ∃ c ∈ back.head?, isWildcard c = true

theorem kept_nil : Kept [] := by
  intro front back cut
  simp at cut

theorem kept_cons (c : Char) (rest : List Char) :
    Kept (c :: rest) ↔ (c = '\\' → ∃ d ∈ rest.head?, isWildcard d = true) ∧ Kept rest := by
  constructor
  · intro kept
    refine ⟨fun slash => ?_, fun front back cut => ?_⟩
    · exact kept [] rest (by rw [slash, List.nil_append])
    · exact kept (c :: front) back (by rw [cut, List.cons_append])
  · rintro ⟨here, later⟩ front back cut
    cases front with
    | nil =>
        obtain ⟨slash, rfl⟩ := List.cons_eq_cons.mp cut
        exact here slash
    | cons first more =>
        obtain ⟨-, tail⟩ := List.cons_eq_cons.mp cut
        exact later more back tail

/-- The same of a text that a backslash may stand before. -/
def KeptFrom : Bool → List Char → Prop
  | false, text => Kept text
  | true, text => (∃ c ∈ text.head?, isWildcard c = true) ∧ Kept text

theorem keptFrom_false_cons (c : Char) (rest : List Char) :
    KeptFrom false (c :: rest) ↔ KeptFrom (decide (c = '\\')) rest := by
  refine (kept_cons c rest).trans ?_
  by_cases slash : c = '\\' <;> simp [slash, KeptFrom]

theorem keptFrom_true_cons (c : Char) (rest : List Char) :
    KeptFrom true (c :: rest) ↔ isWildcard c = true ∧ KeptFrom false rest := by
  have unslashed : isWildcard c = true → c ≠ '\\' := by
    rintro wildcard rfl
    exact absurd wildcard (by decide)
  constructor
  · rintro ⟨⟨d, first, wildcard⟩, kept⟩
    obtain rfl : c = d := Option.some.inj first
    exact ⟨wildcard, ((kept_cons c rest).mp kept).2⟩
  · rintro ⟨wildcard, kept⟩
    exact ⟨⟨c, rfl, wildcard⟩,
      (kept_cons c rest).mpr ⟨fun slash => absurd slash (unslashed wildcard), kept⟩⟩

/-- The text with the backslash that stands before it. -/
def withBackslash (backslash : Bool) (text : List Char) : List Char :=
  if backslash then '\\' :: text else text

theorem meaning_of_isWildcard {c : Char} (wildcard : isWildcard c = true) :
    meaning c = ['\\', c] := if_pos wildcard

theorem length_meaning (c : Char) : (meaning c).length = if isWildcard c then 2 else 1 := by
  unfold meaning
  split
  · rfl
  · split <;> rfl

theorem valueFrom?_of_kept (backslash : Bool) {text : List Char}
    (kept : KeptFrom backslash text) :
    valueFrom? backslash text = some (withBackslash backslash text) := by
  induction text generalizing backslash with
  | nil =>
      cases backslash with
      | false => rfl
      | true => simp [KeptFrom] at kept
  | cons c rest ih =>
      cases backslash with
      | false =>
          have tail := (keptFrom_false_cons c rest).mp kept
          rw [valueFrom?]
          by_cases slash : c = '\\'
          · rw [decide_eq_true slash] at tail
            rw [if_pos slash, ih true tail, slash]
            rfl
          · rw [decide_eq_false slash] at tail
            rw [if_neg slash, ih false tail]
            rfl
      | true =>
          obtain ⟨wildcard, kept⟩ := (keptFrom_true_cons c rest).mp kept
          have unmarked : c ≠ '\'' := by
            rintro rfl
            exact absurd wildcard (by decide)
          rw [valueFrom?, if_neg unmarked, meaning_of_isWildcard wildcard, ih false kept]
          rfl

/-- A value is as long as what was written only when every backslash is kept. -/
theorem length_of_valueFrom? {backslash : Bool} {text value : List Char}
    (read : valueFrom? backslash text = some value) :
    value.length ≤ (withBackslash backslash text).length ∧
      (value.length = (withBackslash backslash text).length → KeptFrom backslash text) := by
  induction text generalizing backslash value with
  | nil =>
      cases backslash with
      | true => cases read
      | false =>
          obtain rfl := Option.some.inj read
          exact ⟨Nat.le_refl _, fun _ => kept_nil⟩
  | cons c rest ih =>
      cases backslash with
      | false =>
          rw [keptFrom_false_cons]
          rw [valueFrom?] at read
          split at read
          case isTrue slash =>
              simpa [slash, withBackslash] using ih read
          case isFalse plain =>
              obtain ⟨v, tail, rfl⟩ := Option.map_eq_some_iff.mp read
              simpa [plain, withBackslash] using ih tail
      | true =>
          rw [keptFrom_true_cons]
          rw [valueFrom?] at read
          split at read
          · cases read
          · obtain ⟨v, tail, rfl⟩ := Option.map_eq_some_iff.mp read
            have ⟨short, full⟩ := ih tail
            simp only [withBackslash, if_true, Bool.false_eq_true, if_false, List.length_append,
              List.length_cons, length_meaning] at short full ⊢
            split
            case isTrue wildcard => exact ⟨by omega, fun same => ⟨wildcard, full (by omega)⟩⟩
            case isFalse => exact ⟨by omega, fun same => absurd same (by omega)⟩

theorem valueFrom?_eq_self_iff (text : List Char) :
    valueFrom? false text = some text ↔ Kept text :=
  ⟨fun read => (length_of_valueFrom? read).2 rfl, valueFrom?_of_kept false⟩

theorem read?_render (s rest value : String) :
    read? (render .mysql (Literal.string s) ++ rest) = some (value, rest) ↔
      readFrom? .inside (Quoted.escape '\'' s.toList ++ '\'' :: rest.toList) =
        some (value.toList, rest.toList) := by
  have text : (render .mysql (Literal.string s) ++ rest).toList =
      '\'' :: (Quoted.escape '\'' s.toList ++ '\'' :: rest.toList) := by
    simp [render, Written.tokens, Literal.tokens, Token.chars, Quoted.wrap]
  simp only [read?, text, if_true, Option.map_eq_some_iff, Prod.mk.injEq]
  constructor
  · rintro ⟨found, read, contents, after⟩
    rw [read, ← contents, ← after, String.toList_ofList, String.toList_ofList]
  · intro read
    exact ⟨_, read, String.ofList_toList, String.ofList_toList⟩

/-- A reader that gives the backslash a meaning finds the end of a string literal
    exactly when the backslashes before each quotation mark of the string, and those
    at its end, come in pairs, and it finds the string exactly when every backslash
    of it stands before a wildcard, in particular when it has none. -/
theorem literal_read_back (s rest : String) (apart : rest.toList.head? ≠ some '\'') :
    ((∃ value, read? (render .mysql (Literal.string s) ++ rest) = some (value, rest)) ↔
      Paired s.toList) ∧
    (read? (render .mysql (Literal.string s) ++ rest) = some (s, rest) ↔ Kept s.toList) ∧
    ('\\' ∉ s.toList → read? (render .mysql (Literal.string s) ++ rest) = some (s, rest)) := by
  have reads (value : String) :
      read? (render .mysql (Literal.string s) ++ rest) = some (value, rest) ↔
        valueFrom? false s.toList = some value.toList :=
    (read?_render s rest value).trans (readFrom?_escape apart false s.toList value.toList)
  have whole : read? (render .mysql (Literal.string s) ++ rest) = some (s, rest) ↔
      Kept s.toList := (reads s).trans (valueFrom?_eq_self_iff s.toList)
  refine ⟨?_, whole, fun absent => whole.mpr fun front back cut => ?_⟩
  · rw [← exists_valueFrom?_iff]
    constructor
    · rintro ⟨value, read⟩
      exact ⟨value.toList, (reads value).mp read⟩
    · rintro ⟨value, read⟩
      exact ⟨String.ofList value, (reads _).mpr (by rwa [String.toList_ofList])⟩
  · exact absurd (cut ▸ List.mem_append_right front List.mem_cons_self) absent

/-- A string with a quotation mark and a backslash that is kept, and one whose last
    backslash takes the closing mark. -/
theorem literal_read_back_wildcard :
    ";".toList.head? ≠ some '\'' ∧
      read? (render .mysql (Literal.string "it's 50\\%") ++ ";") = some ("it's 50\\%", ";") ∧
      ¬∃ value, read? (render .mysql (Literal.string "C:\\") ++ ";") = some (value, ";") := by
  have apart : ";".toList.head? ≠ some '\'' := by decide
  have kept : Kept "it's 50\\%".toList := by
    simp [kept_cons, kept_nil, isWildcard]
  have unpaired : ¬Paired "C:\\".toList := fun paired =>
    absurd (paired "C:\\".toList [] rfl (.inl rfl)) (by decide)
  exact ⟨apart, (literal_read_back _ ";" apart).2.1.mpr kept, fun ends =>
    unpaired ((literal_read_back _ ";" apart).1.mp ends)⟩

/-- After a backslash the doubled mark ends the literal, and the rest of the string
    is read as what comes after it. -/
theorem literal_ended_early :
    "".toList.head? ≠ some '\'' ∧
      read? (render .mysql (Literal.string "\\' OR 1 = 1 -- ") ++ "") =
        some ("'", " OR 1 = 1 -- '") ∧
      ¬∀ s rest : String, rest.toList.head? ≠ some '\'' →
        read? (render .mysql (Literal.string s) ++ rest) = some (s, rest) := by
  have early : read? (render .mysql (Literal.string "\\' OR 1 = 1 -- ") ++ "") =
      some ("'", " OR 1 = 1 -- '") := by
    decide
  refine ⟨by decide, early, fun readBack => ?_⟩
  have whole := readBack "\\' OR 1 = 1 -- " "" (by decide)
  rw [early] at whole
  exact absurd whole (by decide)

end SqlSelect.Backslash
