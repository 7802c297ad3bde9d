import NtpQuery.Command.Table

/-!
# What a keyword selects

The two tables are looked at one after the other, which comes to looking at
all commands in their order: a keyword selects the first command whose name
it begins (`Tables.resolve_eq_some_iff`).

So the selection is stable. Whoever types more of the name of the command
that is selected rules out commands before it and never brings in another
one (`Tables.resolve_of_longer`).
-/

namespace NtpQuery.Tables

variable {α β : Type} {t : Tables α} {keyword : String} {c : Command α}

/-- A keyword begins a name if it is a front part of it. -/
theorem begins_iff :
    begins keyword c = true ↔ keyword.toList <+: c.keyword.toList :=
  List.isPrefixOf_iff_prefix

/-- **The two tables are one list** for a keyword that is not empty. -/
theorem resolve_eq_find? (h : keyword ≠ "") :
    t.resolve keyword = t.commands.find? (begins keyword) := by
  have hne : ¬ keyword.isEmpty = true := fun hempty =>
    h (String.isEmpty_iff.mp hempty)
  unfold resolve commands
  rw [if_neg hne, List.find?_append, Option.orElse_eq_or]

/-- **A keyword selects the first command** whose name it begins, unless it
is empty. -/
theorem resolve_eq_some_iff : t.resolve keyword = some c ↔
    keyword ≠ "" ∧ keyword.toList <+: c.keyword.toList
      ∧ ∃ before after, t.commands = before ++ c :: after
        ∧ ∀ d ∈ before, ¬ keyword.toList <+: d.keyword.toList := by
  by_cases hempty : keyword = ""
  · refine ⟨fun h => ?_, fun h => absurd hempty h.1⟩
    subst hempty
    exact nomatch h
  · rw [resolve_eq_find? hempty, List.find?_eq_some_iff_append, begins_iff]
    refine ⟨fun ⟨hc, before, after, hsplit, hbefore⟩ => ?_,
      fun ⟨_, hc, before, after, hsplit, hbefore⟩ => ?_⟩
    · refine ⟨hempty, hc, before, after, hsplit, fun d hd hbegins => ?_⟩
      have hnot := hbefore d hd
      rw [begins_iff.mpr hbegins] at hnot
      exact nomatch hnot
    · refine ⟨hc, before, after, hsplit, fun d hd => ?_⟩
      rw [Bool.eq_false_iff.mpr fun hbegins =>
        hbefore d hd (begins_iff.mp hbegins)]
      rfl

/-- **More of the name selects the same command.** -/
theorem resolve_of_longer (h : t.resolve keyword = some c)
    {longer : String} (hextends : keyword.toList <+: longer.toList)
    (hbegins : longer.toList <+: c.keyword.toList) :
    t.resolve longer = some c := by
  obtain ⟨hne, -, before, after, hsplit, hbefore⟩ := resolve_eq_some_iff.mp h
  refine resolve_eq_some_iff.mpr
    ⟨?_, hbegins, before, after, hsplit, fun d hd hlonger => ?_⟩
  · rintro rfl
    exact hne (String.toList_eq_nil_iff.mp (List.prefix_nil.mp hextends))
  · -- a name that begins with more begins with less
    exact hbefore d hd (hextends.trans hlonger)

/-- Other actions do not change which command is selected. -/
theorem resolve_map (f : α → β) (t : Tables α) (keyword : String) :
    (t.map f).resolve keyword = (t.resolve keyword).map (·.map f) := by
  have hbegins : begins keyword ∘ Command.map f = begins (α := α) keyword :=
    rfl
  unfold resolve map
  split
  · rfl
  · rw [List.find?_map, List.find?_map, hbegins, Option.orElse_eq_or,
      Option.orElse_eq_or, Option.map_or]

end NtpQuery.Tables
