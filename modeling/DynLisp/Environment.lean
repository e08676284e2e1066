import DynLisp.Expr.Source

/-! # Environments

An environment is a stack of frames, and a frame gives names their bindings.

* A binding with parameters is a function, one without is a variable.
* Names are looked up from the innermost frame outwards, and bound in the innermost frame.
* A frame keeps its names in the order in which they were first bound. -/

namespace DynLisp

/-- What a name stands for. -/
structure Binding where
  params : List String
  body : Expr

namespace Binding

/-- A plain variable. -/
def ofValue (e : Expr) : Binding := ⟨[], e⟩

def isFunction (b : Binding) : Bool :=
  !b.params.isEmpty

end Binding

/-- Names and their bindings; no name occurs twice in a frame that `bind` has built. -/
structure Frame where
  entries : List (String × Binding)

namespace Frame

def empty : Frame := ⟨[]⟩

def find? (f : Frame) (name : String) : Option Binding :=
  f.entries.lookup name

def contains (f : Frame) (name : String) : Bool :=
  (f.find? name).isSome

/-- The entries with `name` bound anew: in its old place if it has one, otherwise at the end. -/
def bindEntry (name : String) (b : Binding) : List (String × Binding) → List (String × Binding)
  | [] => [(name, b)]
  | entry :: rest => if entry.1 = name then (name, b) :: rest else entry :: bindEntry name b rest

def bind (f : Frame) (name : String) (b : Binding) : Frame :=
  ⟨bindEntry name b f.entries⟩

theorem lookup_bindEntry (name other : String) (b : Binding) (entries : List (String × Binding)) :
    (bindEntry name b entries).lookup other =
      if other = name then some b else entries.lookup other := by
  have beq_false {s t : String} (h : s ≠ t) : (s == t) = false := beq_eq_false_iff_ne.2 h
  induction entries with
  | nil =>
    by_cases h : other = name
    · simp [bindEntry, h]
    · simp [bindEntry, List.lookup_cons, h, beq_false h]
  | cons entry rest ih =>
    obtain ⟨key, old⟩ := entry
    simp only [bindEntry]
    split
    · subst key
      by_cases h : other = name
      · simp [h]
      · simp [List.lookup_cons, h, beq_false h]
    · rename_i hkey
      by_cases h : other = key
      · subst h
        simp [hkey]
      · simp [List.lookup_cons, beq_false h, ih]

/-- Binding a name changes what this name stands for and nothing else. -/
theorem find?_bind (f : Frame) (name other : String) (b : Binding) :
    (f.bind name b).find? other = if other = name then some b else f.find? other :=
  lookup_bindEntry name other b f.entries

/-- The names of a frame, in order. -/
def names (f : Frame) : List String :=
  f.entries.map (·.1)

/-- Binding a name keeps all names in their places, and puts a new one at the end. -/
theorem names_bind (f : Frame) (name : String) (b : Binding) :
    (f.bind name b).names = if name ∈ f.names then f.names else f.names ++ [name] := by
  obtain ⟨entries⟩ := f
  simp only [names, bind]
  induction entries with
  | nil => simp [bindEntry]
  | cons entry rest ih =>
    by_cases he : entry.1 = name
    · simp [bindEntry, he]
    · have : ¬ name = entry.1 := fun h => he h.symm
      by_cases hm : name ∈ rest.map (·.1) <;> simp_all [bindEntry]

/-- The frame that gives each name its value, a later one of the same name replacing an earlier. -/
def ofValues (pairs : List (String × Expr)) : Frame :=
  pairs.foldl (fun f pair => f.bind pair.1 (.ofValue pair.2)) empty

end Frame

/-- An operation that needs a frame was asked of an environment without frames. -/
inductive ScopeError where
  | nothingToPop
  | nothingToAddTo
deriving DecidableEq, Repr

def ScopeError.message : ScopeError → String
  | nothingToPop => "Environment has no context to pop."
  | nothingToAddTo => "Environment has no context to add to."

/-- A stack of frames, innermost first. -/
structure Environment where
  frames : List Frame

namespace Environment

def empty : Environment := ⟨[]⟩

/-- The frame that sessions begin with: what the two verdicts stand for as conditions. -/
def verdictFrame : Frame :=
  ⟨[(Expr.verdictName false, .ofValue (.list [])),
    (Expr.verdictName true, .ofValue (.list [.number 1]))]⟩

/-- One frame, in which the verdicts are bound. -/
def default : Environment := ⟨[verdictFrame]⟩

instance : Inhabited Environment := ⟨default⟩

/-- One frame of variables. -/
def ofValues (pairs : List (String × Expr)) : Environment :=
  ⟨[.ofValues pairs]⟩

/-- The innermost binding of a name. -/
def lookup (env : Environment) (name : String) : Option Binding :=
  env.frames.findSome? (·.find? name)

def contains (env : Environment) (name : String) : Bool :=
  env.frames.any (·.contains name)

def size (env : Environment) : Nat :=
  env.frames.length

/-! ### Changing an environment -/

def push (env : Environment) (f : Frame) : Environment :=
  ⟨f :: env.frames⟩

/-- The environment without its innermost frame, if it has one. -/
def dropInnermost (env : Environment) : Environment :=
  ⟨env.frames.tail⟩

def pop (env : Environment) : Except ScopeError Environment :=
  match env.frames with
  | [] => .error .nothingToPop
  | _ :: outer => .ok ⟨outer⟩

/-- Binds a name in the innermost frame. -/
def bind (env : Environment) (name : String) (b : Binding) : Except ScopeError Environment :=
  match env.frames with
  | [] => .error .nothingToAddTo
  | inner :: outer => .ok ⟨inner.bind name b :: outer⟩

theorem lookup_push (env : Environment) (f : Frame) (name : String) :
    (env.push f).lookup name = (f.find? name).or (env.lookup name) := by
  cases h : f.find? name <;> simp [lookup, push, h]

theorem contains_eq_isSome_lookup (env : Environment) (name : String) :
    env.contains name = (env.lookup name).isSome := by
  obtain ⟨frames⟩ := env
  induction frames with
  | nil => rfl
  | cons f rest ih =>
    simp only [contains, lookup, List.any_cons, List.findSome?_cons, Frame.contains] at ih ⊢
    cases f.find? name <;> simp [ih]

theorem lookup_of_bind {env env' : Environment} {name : String} {b : Binding}
    (h : env.bind name b = .ok env') (other : String) :
    env'.lookup other = if other = name then some b else env.lookup other := by
  obtain ⟨frames⟩ := env
  cases frames with
  | nil => simp [bind] at h
  | cons inner outer =>
    simp only [bind, Except.ok.injEq] at h
    subst h
    by_cases hn : other = name <;> simp [lookup, List.findSome?_cons, Frame.find?_bind, hn]

/-! ### Listings -/

/-- An entry of a frame: the name, a function's parameters and the body. -/
def entryListing : String × Binding → String
  | (name, b) =>
    let head := if b.isFunction then name ++ "(" ++ " ".intercalate b.params ++ ")" else name
    head ++ ": " ++ b.body.listing

def frameListing (f : Frame) : String :=
  "\x7b" ++ ", ".intercalate (f.entries.map entryListing) ++ "\x7d"

/-- The innermost frame, and a sign that there are others. -/
def summary (env : Environment) : String :=
  match env.frames with
  | [] => "\x7b\x7d"
  | [inner] => frameListing inner
  | inner :: _ => frameListing inner ++ " -> ..."

/-- All frames, innermost first. -/
def listing (env : Environment) : String :=
  "<Environment stack: " ++ " -> ".intercalate (env.frames.map frameListing) ++ ">"

end Environment
end DynLisp
