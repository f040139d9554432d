import SqlSelect.Proofs.Node
namespace SqlSelect

/-! The text of a node is a sequence of segments that no dialect has a say in.  A
dialect only decides how the identifiers among them are quoted, and the quotes
can be taken off again.
-/

namespace Quoted

/-- The text with every doubled mark read as one. -/
def unescape (mark : Char) : List Char → List Char
  | a :: b :: rest =>
      if a = mark ∧ b = mark then mark :: unescape mark rest else a :: unescape mark (b :: rest)
  | rest => rest

/-- What stands between the marks around a text. -/
def unwrap (mark : Char) (text : List Char) : List Char := unescape mark text.tail.dropLast

theorem unescape_cons_of_ne {mark c : Char} (other : c ≠ mark) (rest : List Char) :
    unescape mark (c :: rest) = c :: unescape mark rest := by
  cases rest with
  | nil => rfl
  | cons b rest => rw [unescape, if_neg fun both => other both.1]

theorem unescape_escape (mark : Char) (text : List Char) :
    unescape mark (escape mark text) = text := by
  induction text with
  | nil => rfl
  | cons c rest ih =>
      rw [escape]
      by_cases same : c = mark
      · rw [if_pos same, unescape, if_pos ⟨rfl, rfl⟩, ih, same]
      · rw [if_neg same, unescape_cons_of_ne same, ih]

theorem unwrap_wrap (mark : Char) (text : List Char) : unwrap mark (wrap mark text) = text := by
  rw [unwrap, wrap, List.tail_cons, List.dropLast_concat, unescape_escape]

end Quoted

/-- A stretch of a text: copied as it is, or an identifier. -/
inductive Segment where
  | text (chars : List Char)
  | ident (name : String)

namespace Segment

def chars : Dialect → Segment → List Char
  | _, .text cs => cs
  | .generic, .ident name => name.toList
  | .postgresql, .ident name | .sqlite, .ident name => Quoted.wrap '"' name.toList
  | .mysql, .ident name => Quoted.wrap '\x60' name.toList

/-- The text of a segment in a dialect, without the quotes around an identifier. -/
def unquoted (d : Dialect) : Segment → List Char
  | .text cs => cs
  | .ident name =>
      match d.mark? with
      | none => chars d (.ident name)
      | some mark => Quoted.unwrap mark (chars d (.ident name))

def ident? : Segment → Option String
  | .text _ => none
  | .ident name => some name

theorem unquoted_eq (d : Dialect) (s : Segment) : s.unquoted d = s.chars .generic := by
  cases s with
  | text cs => rfl
  | ident name => cases d <;> first | rfl | exact Quoted.unwrap_wrap _ name.toList

theorem chars_sqlite (s : Segment) : s.chars .sqlite = s.chars .postgresql := by
  cases s <;> rfl

end Segment

def Token.segment : Token → Segment
  | .ident name => .ident name
  | t => .text (t.chars .generic)

theorem Token.chars_segment (d : Dialect) (t : Token) : t.segment.chars d = t.chars d := by
  cases t with
  | ident name => cases d <;> rfl
  | _ => rfl

theorem Token.ident?_segment (t : Token) : t.segment.ident? = t.ident? := by
  cases t <;> rfl

theorem render_eq_segments (d : Dialect) (n : Node) :
    (render d n).toList = (n.tokens.map Token.segment).flatMap (Segment.chars d) := by
  rw [List.flatMap_map]
  simp only [Token.chars_segment]
  exact String.toList_ofList

/-- The dialect decides how identifiers are quoted, and nothing else.  The
    segments of a node do not depend on it, the identifiers among them are those
    of the outline, and without the quotes every dialect writes the generic
    text. -/
theorem Node.render_segments (n : Node) : ∃ segments : List Segment,
    (∀ d, (render d n).toList = segments.flatMap (Segment.chars d)) ∧
      segments.filterMap Segment.ident? = n.outline.identifiers ∧
      render .sqlite n = render .postgresql n ∧
      ∀ d, (render .generic n).toList = segments.flatMap (Segment.unquoted d) := by
  have written := fun d => render_eq_segments d n
  refine ⟨n.tokens.map Token.segment, written, ?_, ?_, fun d => ?_⟩
  · have idents : Segment.ident? ∘ Token.segment = Token.ident? := by
      funext t
      exact t.ident?_segment
    rw [List.filterMap_map, idents, ← n.content_tokens, Tokens.identifiers_content]
  · have quoted : Segment.chars .sqlite = Segment.chars .postgresql := funext Segment.chars_sqlite
    rw [← String.toList_inj, written, written, quoted]
  · have generic : Segment.unquoted d = Segment.chars .generic := funext (Segment.unquoted_eq d)
    rw [written, generic]

end SqlSelect
