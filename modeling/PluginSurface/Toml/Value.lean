/-!
TOML documents as trees, and the rules by which entries come into them.
-/

namespace PluginSurface

/-- What made a table. -/
inductive TableOrigin where
  /-- It is written between braces and takes no entry from elsewhere. -/
  | inline
  /-- It has a header of its own. -/
  | header
  /-- It stands in the header of another table. -/
  | implied
  /-- It stands in a dotted key. -/
  | dotted
deriving DecidableEq, Inhabited

/-- A value of a document. An array of tables that is written with headers has
its newest table apart, as only that one takes further entries. -/
inductive Toml where
  | string (text : String)
  | integer (value : Int)
  | float (value : Float)
  | bool (value : Bool)
  /-- A date, a time of day or both, as written. -/
  | moment (text : String)
  | array (items : List Toml)
  | table (origin : TableOrigin) (entries : List (String × Toml))
  | tables (newest : List (String × Toml))
      (earlier : List (List (String × Toml)))
deriving Inhabited

namespace Toml

/-- The entries of a table in the order their keys came up, no key twice. -/
abbrev Entries := List (String × Toml)

namespace Entries

/-- Changes what stands under a key, or puts something there. -/
def update (key : String) (change : Option Toml → Option Toml) :
    Entries → Option Entries
  | [] => (change none).map fun value => [(key, value)]
  | (name, held) :: rest =>
      if name = key then
        (change (some held)).map fun value => (name, value) :: rest
      else (update key change rest).map ((name, held) :: ·)

/-- Puts a value under a key that is free. -/
def put (key : String) (value : Toml) : Entries → Option Entries :=
  update key fun held => if held.isNone then some value else none

/-- Puts a value under a dotted key, which makes the tables that it passes
through. It enters no table that is written between braces or has a header, and
only a table that dotted keys made takes a value. -/
def insert (value : Toml) : List String → Entries → Option Entries
  | [], _ => none
  | [key], entries => put key value entries
  | key :: next :: rest, entries =>
      update key (fun held =>
        match held with
        | none =>
            (insert value (next :: rest) []).map (.table .dotted)
        | some (.table .dotted inner) =>
            (insert value (next :: rest) inner).map (.table .dotted)
        | some (.table .implied inner) =>
            if rest.isEmpty then none
            else (insert value (next :: rest) inner).map (.table .implied)
        | some (.tables newest earlier) =>
            if rest.isEmpty then none
            else
              (insert value (next :: rest) newest).map fun newest =>
                .tables newest earlier
        | _ => none) entries

/-- Changes the entries of the table with a path, as a header names it: an array
of tables stands for its newest one, and tables that are missing are made. -/
def under (change : Entries → Option Entries) :
    List String → Entries → Option Entries
  | [], entries => change entries
  | key :: rest, entries =>
      update key (fun held =>
        match held with
        | none => (under change rest []).map (.table .implied)
        | some (.table .inline _) => none
        | some (.table origin inner) =>
            (under change rest inner).map (.table origin)
        | some (.tables newest earlier) =>
            (under change rest newest).map fun newest =>
              .tables newest earlier
        | _ => none) entries

/-- Gives a table its header, which it may have only once. -/
def openTable (key : String) : Entries → Option Entries :=
  update key fun held =>
    match held with
    | none => some (.table .header [])
    | some (.table .implied inner) => some (.table .header inner)
    | _ => none

/-- Adds a table to an array of tables. -/
def openElement (key : String) : Entries → Option Entries :=
  update key fun held =>
    match held with
    | none => some (.tables [] [])
    | some (.tables newest earlier) => some (.tables [] (newest :: earlier))
    | _ => none

def find? (entries : Entries) (key : String) : Option Toml :=
  List.lookup key entries

end Entries

end Toml

end PluginSurface
