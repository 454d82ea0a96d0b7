/-! Markup as a tree. Within an element no two texts are neighbours, and no text is empty or a single blank, which
    show nothing. -/

namespace MfaConsole

/-- What an attribute says: a text, or only that it is there. -/
inductive Attribute where
  | text (value : String)
  | flag
  deriving DecidableEq, Repr

instance : Coe String Attribute := ⟨.text⟩

/-- A piece of markup. -/
inductive Markup where
  | text (content : String)
  | element (tag : String) (attributes : List (String × Attribute)) (children : List Markup)
  deriving Inhabited

namespace Markup

def shows (content : String) : Bool := content ≠ "" && content ≠ " "

/-- A piece before others; a text joins the text it stands before. -/
def before : Markup → List Markup → List Markup
  | .text a, .text b :: rest => .text (a ++ b) :: rest
  | m, rest => m :: rest

def joined (children : List Markup) : List Markup := children.foldr before []

def isKept : Markup → Bool
  | .text content => shows content
  | .element .. => true

def node (tag : String) (attributes : List (String × Attribute)) (children : List Markup) : Markup :=
  .element tag attributes ((joined children).filter isKept)

def textNode (tag : String) (attributes : List (String × Attribute)) (content : String) : Markup :=
  node tag attributes [.text content]

def link (url content : String) : Markup := textNode "a" [("href", url)] content

def tableHead (titles : List String) : Markup :=
  node "thead" [] [node "tr" [] (titles.map (textNode "th" []))]

def table (titles : List String) (rows : List Markup) : Markup :=
  node "table" [("class", "table")] [tableHead titles, node "tbody" [] rows]

def row (cells : List (List Markup)) : Markup := node "tr" [] (cells.map (node "td" []))

/-- A field of a form that is named by the text it shows while empty. -/
def field (kind placeholder : String) : Markup :=
  node "input" [("type", kind), ("placeholder", placeholder)] []

def submit (label : String) : Markup := textNode "button" [("type", "submit")] label

def dangerButton (label : String) : Markup := textNode "button" [("class", "danger")] label

end Markup
end MfaConsole
