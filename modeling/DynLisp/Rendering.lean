import DynLisp.Environment

/-! # Rendering

Rendering writes an expression without evaluating it, but with the names in it resolved: a variable
is written as what it stands for, a function as a sign that it is one, and any other symbol by its
name.  Variables that stand for one another make rendering endless, so it is limited to a depth of
nested calls. -/

namespace DynLisp

/-- What is written for a function. -/
def functionSign (name : String) : String :=
  "<func-object: " ++ name ++ ">"

/-- The text of an expression in an environment, by at most `d` nested calls. -/
def Environment.render (env : Environment) : Nat → Expr → Option String
  | 0, _ => none
  | _ + 1, .number x => some (Numeral.plain x)
  | d + 1, .symbol name =>
    match env.lookup name with
    | none => some name
    | some b => if b.isFunction then some (functionSign name) else env.render d b.body
  | d + 1, .list items => do
    let texts ← items.mapM (env.render d)
    return "(" ++ " ".intercalate texts ++ ")"

namespace Environment

theorem render_symbol (env : Environment) (d : Nat) (name : String) :
    env.render (d + 1) (.symbol name) =
      match env.lookup name with
      | none => some name
      | some b => if b.isFunction then some (functionSign name) else env.render d b.body := by
  rw [render]

theorem render_list (env : Environment) (d : Nat) (items : List Expr) :
    env.render (d + 1) (.list items) =
      (items.mapM (env.render d)).map fun texts => "(" ++ " ".intercalate texts ++ ")" := by
  rw [render]
  cases items.mapM (env.render d) <;> rfl

end Environment
end DynLisp
