import NtpQuery.Text.Binary64

/-!
# TOML values

A TOML document is a table of values. How a table came to be decides
what may still be added to it, so every table carries its `Origin`:

* a header `[a]` defines a table once, and may give a definition to a
  table that so far only leads to others;
* a dotted key adds to tables that other dotted keys made, never to one
  that a header defined;
* an inline table is complete, and nothing can be added to it.

Likewise an array of tables grows by `[[a]]` headers alone, and what
leads through it leads through its last table.

The three ways of adding to a table fail, with `none`, where the
document would define something twice or extend what is closed.

A number may be well written and still have no value: it has no digits,
or it is out of range. Such a number stands in the document like any
other and is at fault only where it is read, so it is a value here, and
`Value.isLegible` says whether there is none within a value.
-/

namespace NtpQuery.Toml

/-- **How a table came to be.** -/
inductive Origin where
  /-- It leads to a table that a header defines. -/
  | implicit
  /-- A header defines it. -/
  | header
  /-- A dotted key leads through it. -/
  | dotted
  /-- It is written inline. -/
  | inline
  deriving DecidableEq, Repr

/-- **A TOML value.** -/
inductive Value where
  /-- A string. -/
  | string (s : String)
  /-- An integer, with its number if it has one. -/
  | integer (n : Option Int)
  /-- A floating-point number, if it has a value. -/
  | float (x : Option Text.Binary64)
  /-- A truth value. -/
  | boolean (b : Bool)
  /-- A date, a time or both, as written. -/
  | datetime (text : String)
  /-- An array; `growing` if it is made of `[[...]]` headers. -/
  | array (growing : Bool) (items : List Value)
  /-- A table. -/
  | table (origin : Origin) (entries : List (String × Value))

/-- The entries of a table, in the order in which they were made. -/
abbrev Entries := List (String × Value)

mutual

/-- **Whether all numbers within a value have values themselves.** -/
def Value.isLegible : Value → Bool
  | .integer n => n.isSome
  | .float x => x.isSome
  | .array _ items => Value.areLegible items
  | .table _ entries => Entries.areLegible entries
  | .string _ | .boolean _ | .datetime _ => true

/-- Whether all items of an array are legible. -/
def Value.areLegible : List Value → Bool
  | [] => true
  | v :: rest => v.isLegible && Value.areLegible rest

/-- Whether all values of a table are legible. -/
def Entries.areLegible : List (String × Value) → Bool
  | [] => true
  | (_, v) :: rest => v.isLegible && Entries.areLegible rest

end

namespace Entries

/-- The entries with another value for a key that is there already. -/
def replace (key : String) (v : Value) (es : Entries) : Entries :=
  es.map fun e => if e.1 = key then (key, v) else e

/-- **Changing the entries that a header leads through.** Tables on the
way are made where they are missing; of a growing array, the last table
counts. `leaf` does the work at the last key. -/
def along (leaf : String → Entries → Option Entries) :
    List String → Entries → Option Entries
  | [], _ => none
  | [key], es => leaf key es
  | key :: path, es =>
    match es.lookup key with
    | none => (along leaf path []).map fun inner =>
        es ++ [(key, .table .implicit inner)]
    | some (.table .inline _) => none
    | some (.table origin inner) =>
      (along leaf path inner).map fun inner =>
        es.replace key (.table origin inner)
    | some (.array true items) =>
      match items.getLast? with
      | some (.table origin inner) =>
        (along leaf path inner).map fun inner =>
          es.replace key
            (.array true (items.dropLast ++ [.table origin inner]))
      | _ => none
    | some _ => none

/-- The table that a header `[...]` defines, at its last key. -/
def defineTable (key : String) (es : Entries) : Option Entries :=
  match es.lookup key with
  | none => some (es ++ [(key, .table .header [])])
  | some (.table .implicit inner) =>
    some (es.replace key (.table .header inner))
  | some _ => none

/-- The table that a header `[[...]]` adds, at its last key. -/
def appendTable (key : String) (es : Entries) : Option Entries :=
  match es.lookup key with
  | none => some (es ++ [(key, .array true [.table .header []])])
  | some (.array true items) =>
    some (es.replace key (.array true (items ++ [.table .header []])))
  | some _ => none

/-- **Giving a value to a dotted key.** The table that holds the last
part must be of dotted keys' making; those on the way may also lead to
tables that headers define, or be the last of a growing array. -/
def assign (v : Value) : List String → Entries → Option Entries
  | [], _ => none
  | [key], es =>
    if (es.lookup key).isSome then none else some (es ++ [(key, v)])
  | key :: path, es =>
    match es.lookup key with
    | none => (assign v path []).map fun inner =>
        es ++ [(key, .table .dotted inner)]
    | some (.table origin inner) =>
      if origin = .dotted ∨ (origin = .implicit ∧ path.length ≠ 1) then
        (assign v path inner).map fun inner =>
          es.replace key (.table origin inner)
      else none
    | some (.array true items) =>
      match items.getLast? with
      | some (.table origin inner) =>
        if path.length = 1 then none
        else
          (assign v path inner).map fun inner =>
            es.replace key
              (.array true (items.dropLast ++ [.table origin inner]))
      | _ => none
    | some _ => none

/-- **Giving a value to a dotted key** under the last header. -/
def assignUnder (header keys : List String) (v : Value) (es : Entries) :
    Option Entries :=
  match header with
  | [] => assign v keys es
  | header =>
    along
      (fun key es =>
        match es.lookup key with
        | some (.table origin inner) =>
          (assign v keys inner).map fun inner =>
            es.replace key (.table origin inner)
        | some (.array true items) =>
          match items.getLast? with
          | some (.table origin inner) =>
            (assign v keys inner).map fun inner =>
              es.replace key
                (.array true (items.dropLast ++ [.table origin inner]))
          | _ => none
        | _ => none)
      header es

end Entries

end NtpQuery.Toml
