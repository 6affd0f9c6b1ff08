/-!
Dictionaries with text keys, held as association lists in increasing key
order with no key twice. Text is ordered by code point, which is also the order
of its UTF-8 bytes.
-/

namespace PluginSurface

/-- A dictionary is the list of its entries in increasing key order. -/
abbrev Dict (Value : Type) := List (String × Value)

namespace Dict

variable {Value : Type}

def find? (entries : Dict Value) (key : String) : Option Value :=
  List.lookup key entries

/-- Stores a value under a key, in place of the one that was there. -/
def insert (entries : Dict Value) (key : String) (value : Value) : Dict Value :=
  match entries with
  | [] => [(key, value)]
  | (first, held) :: rest =>
      if key < first then (key, value) :: (first, held) :: rest
      else if key = first then (key, value) :: rest
      else (first, held) :: insert rest key value

def contains (entries : Dict Value) (key : String) : Bool :=
  (entries.find? key).isSome

/-- Collects entries in any order; of several with one key the last stays. -/
def ofEntries (entries : List (String × Value)) : Dict Value :=
  entries.foldl (fun dict entry => insert dict entry.1 entry.2) []

def keys (entries : Dict Value) : List String :=
  entries.map Prod.fst

end Dict

end PluginSurface
