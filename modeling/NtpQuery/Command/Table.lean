import NtpQuery.Command.Argument

/-!
# Tables of commands

Commands stand in two tables, core and extended. A keyword selects the
first command whose name it begins, in the core table if there is one
there, and otherwise in the extended table. So an ambiguous keyword goes
to the name that is declared first, and the order of a table is part of
its meaning.
-/

namespace NtpQuery

/-- **A command**: its name, its slots, two lines of help, and what it
does. -/
structure Command (α : Type) where
  /-- The full name. -/
  keyword : String
  /-- The positional arguments, in order. -/
  slots : List Slot
  /-- The arguments, as help shows them. -/
  usage : String
  /-- What the command is for, in one line. -/
  comment : String
  /-- What it does. -/
  action : α

/-- The number of arguments that must be given. -/
def Command.requiredCount {α : Type} (c : Command α) : Nat :=
  c.slots.countP (·.required)

/-- The command with another action. -/
def Command.map {α β : Type} (f : α → β) (c : Command α) : Command β :=
  ⟨c.keyword, c.slots, c.usage, c.comment, f c.action⟩

/-- **The tables** that keywords are looked up in. -/
structure Tables (α : Type) where
  /-- The core commands, looked at first. -/
  core : List (Command α)
  /-- The extended commands. -/
  extended : List (Command α)

namespace Tables

variable {α β : Type}

/-- All commands, in the order in which they are looked at. -/
def commands (t : Tables α) : List (Command α) :=
  t.core ++ t.extended

/-- The tables with other actions. -/
def map (f : α → β) (t : Tables α) : Tables β :=
  ⟨t.core.map (·.map f), t.extended.map (·.map f)⟩

/-- Whether a keyword begins the name of a command. -/
def begins (keyword : String) (c : Command α) : Bool :=
  keyword.toList.isPrefixOf c.keyword.toList

/-- **The command that a keyword selects.** The empty keyword selects
none. -/
def resolve (t : Tables α) (keyword : String) : Option (Command α) :=
  if keyword.isEmpty then none
  else
    (t.core.find? (begins keyword)).orElse fun _ =>
      t.extended.find? (begins keyword)

end Tables

end NtpQuery
