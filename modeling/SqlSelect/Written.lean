import SqlSelect.Token.Phrase
namespace SqlSelect

/-- A node of a statement tree that can be rendered: its text is that of its
    tokens. -/
class Written (τ : Type) where
  tokens : τ → Tokens

/-- Pieces that are already written. -/
instance : Written Tokens := ⟨id⟩

def render [Written τ] (d : Dialect) (node : τ) : String :=
  String.ofList ((Written.tokens node).chars d)

theorem render_append (d : Dialect) (left right : Tokens) :
    render d (left ++ right) = render d left ++ render d right := by
  simp [render, Written.tokens]

theorem render_flatMap (d : Dialect) (f : α → Tokens) (items : List α) :
    render d (items.flatMap f) = String.join (items.map fun item => render d (f item)) := by
  induction items with
  | nil => rfl
  | cons item rest ih =>
      rw [List.flatMap_cons, render_append, ih, List.map_cons, String.join_cons]

/-- The text of a node as a complete statement. -/
def statement [Written τ] (d : Dialect) (node : τ) : String :=
  String.ofList ((Written.tokens node).chars d ++ [';'])

theorem statement_toList [Written τ] (d : Dialect) (node : τ) :
    (statement d node).toList = (render d node).toList ++ [';'] := by
  simp [statement, render]

end SqlSelect
