import DynLisp.Expr.Basic
import DynLisp.Number.Plain
import DynLisp.Number.Scientific
import DynLisp.Text.Quoted

/-! # Expressions as text

Two forms of an expression as text:

* the source form, from which the expression can be read back: numbers in plain notation, symbols
  by their names, lists in parentheses with single spaces between the items;
* the listing form, which tells apart what the source form writes alike: numbers in scientific
  notation, symbols as `Symbol('name')`, lists with commas, a single item followed by one. -/

namespace DynLisp.Expr

/-! ### Source form -/

mutual

/-- The source form. -/
def source : Expr → String
  | number x => Numeral.plain x
  | symbol name => name
  | list items => "(" ++ sourceOfItems items ++ ")"

/-- The source forms of the items of a list with spaces between them. -/
def sourceOfItems : List Expr → String
  | [] => ""
  | [item] => source item
  | item :: rest => source item ++ " " ++ sourceOfItems rest

end

theorem intercalate_sources : ∀ items : List Expr,
    " ".intercalate (items.map source) = sourceOfItems items
  | [] => by simp [sourceOfItems]
  | [item] => by simp [sourceOfItems]
  | item :: next :: rest => by
      rw [sourceOfItems, ← intercalate_sources (next :: rest), List.map_cons, List.map_cons,
        String.intercalate_cons_cons]
      simp

/-- The items are written like words. -/
theorem source_list (items : List Expr) :
    (list items).source = "(" ++ " ".intercalate (items.map source) ++ ")" := by
  rw [source, intercalate_sources]

/-- `source` by at most `d` nested calls. -/
def sourceWithin (d : Nat) (e : Expr) : Option String :=
  if e.nesting < d then some e.source else none

/-! ### Listing form -/

/-- A symbol in the listing form. -/
def symbolListing (name : String) : String :=
  "Symbol(" ++ Text.quoted name ++ ")"

mutual

/-- The listing form. -/
def listing : Expr → String
  | number x => Numeral.scientific x
  | symbol name => symbolListing name
  | list [] => "()"
  | list [item] => "(" ++ listing item ++ ",)"
  | list (first :: rest) => "(" ++ listing first ++ listingOfItems rest ++ ")"

/-- The listing forms of further items, each after a comma. -/
def listingOfItems : List Expr → String
  | [] => ""
  | item :: rest => ", " ++ listing item ++ listingOfItems rest

end

end DynLisp.Expr
