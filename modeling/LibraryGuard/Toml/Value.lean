import LibraryGuard.Decimal.Binary64

/-!
# Values of a TOML document

A table keeps its entries in the order in which the document first names them. Dates and times are kept as their text.
-/

namespace LibraryGuard.Toml

/-- A value of a document. -/
inductive Value where
  | string (text : String)
  | integer (number : Int)
  | float (number : Decimal.Binary64)
  | boolean (value : Bool)
  | moment (text : String)
  | array (items : List Value)
  | table (entries : List (String × Value))
  deriving Repr

end LibraryGuard.Toml
