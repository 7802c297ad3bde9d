import NtpQuery.Command.Standard
import NtpQuery.Proofs.Command.Resolution

/-!
# Which commands can be selected

Of the commands that a keyword stands for, the one that is declared first is
selected. So a command can hide others that are declared behind it. To speak
of a command as the one that is declared at a place, and not of another that
happens to look the same, the tables are looked at with the places put down
beside the actions (`Tables.SelectsAt`).

A keyword that selects a command at all can be replaced by the whole name of
the command. Whether a command is hidden is therefore a matter of the names
before its own: it is, if its name begins one of them
(`Tables.selection_order`).
-/

namespace NtpQuery

namespace Tables

variable {α : Type} {t : Tables α} {keyword : String} {c : Command α}
variable {n : Nat}

/-- **A keyword stands for a command**: it is a front part of its name, and
not empty. -/
def Abbreviates (keyword : String) (c : Command α) : Prop :=
  keyword ≠ "" ∧ keyword.toList <+: c.keyword.toList

/-- **The first command that a keyword stands for** is declared at a
place. -/
structure FirstAt (t : Tables α) (keyword : String) (n : Nat)
    (c : Command α) : Prop where
  /-- The command is declared there. -/
  declared : t.commands[n]? = some c
  /-- The keyword stands for it. -/
  abbreviates : Abbreviates keyword c
  /-- It stands for none of those before. -/
  before : ∀ m < n, ∀ d, t.commands[m]? = some d → ¬ Abbreviates keyword d

/-- **The tables with places**: each action comes with the place at which
its command is declared. -/
def numbered (t : Tables α) : Tables (α × Nat) where
  core := t.core.mapIdx fun n c => c.map (·, n)
  extended := t.extended.mapIdx fun n c => c.map (·, t.core.length + n)

/-- **A keyword selects the command at a place.** -/
def SelectsAt (t : Tables α) (keyword : String) (n : Nat) : Prop :=
  ∃ c, t.numbered.resolve keyword = some c ∧ c.action.2 = n

/-- The places do not change what is declared. -/
theorem getElem?_numbered (t : Tables α) (n : Nat) :
    t.numbered.commands[n]? = t.commands[n]?.map (·.map (·, n)) := by
  have hlist : t.numbered.commands
      = t.commands.mapIdx fun n c => c.map (·, n) := by
    unfold commands numbered
    rw [List.mapIdx_append]
    simp only [Nat.add_comm]
  rw [hlist, List.getElem?_mapIdx]

/-- **A keyword selects the first command** that it stands for. -/
theorem resolve_eq_some_iff_firstAt :
    t.resolve keyword = some c ↔ ∃ n, t.FirstAt keyword n c := by
  rw [resolve_eq_some_iff]
  constructor
  · rintro ⟨hne, hbegins, before, after, hsplit, hbefore⟩
    refine ⟨before.length, ?_, ⟨hne, hbegins⟩, fun m hm d hd habb => ?_⟩
    · rw [hsplit, List.getElem?_append_right (Nat.le_refl _), Nat.sub_self]
      rfl
    · rw [hsplit, List.getElem?_append_left hm] at hd
      exact hbefore d (List.mem_of_getElem? hd) habb.2
  · rintro ⟨n, hdeclared, ⟨hne, hbegins⟩, hbefore⟩
    obtain ⟨hn, hget⟩ := List.getElem?_eq_some_iff.mp hdeclared
    refine ⟨hne, hbegins, t.commands.take n, t.commands.drop (n + 1), ?_,
      fun d hd hprefix => ?_⟩
    · rw [← hget, List.getElem_cons_drop, List.take_append_drop]
    · obtain ⟨m, hm⟩ := List.mem_iff_getElem?.mp hd
      rw [List.getElem?_take] at hm
      split at hm
      next hlt => exact hbefore m hlt d hm ⟨hne, hprefix⟩
      next => exact nomatch hm

/-- **Where the command is declared** that a keyword selects. -/
theorem selectsAt_iff :
    t.SelectsAt keyword n ↔ ∃ c, t.FirstAt keyword n c := by
  -- the first command in the tables with places is the first in the tables
  have hfirst : ∀ m c, t.numbered.FirstAt keyword m c ↔
      ∃ d, d.map (·, m) = c ∧ t.FirstAt keyword m d := by
    intro m c
    constructor
    · rintro ⟨hdeclared, habb, hbefore⟩
      rw [getElem?_numbered] at hdeclared
      obtain ⟨d, hd, rfl⟩ := Option.map_eq_some_iff.mp hdeclared
      refine ⟨d, rfl, hd, habb, fun k hk e he => ?_⟩
      refine hbefore k hk (e.map (·, k)) ?_
      rw [getElem?_numbered, he]
      rfl
    · rintro ⟨d, rfl, hdeclared, habb, hbefore⟩
      refine ⟨?_, habb, fun k hk e he => ?_⟩
      · rw [getElem?_numbered, hdeclared]
        rfl
      · rw [getElem?_numbered] at he
        obtain ⟨e', he', rfl⟩ := Option.map_eq_some_iff.mp he
        exact hbefore k hk e' he'
  unfold SelectsAt
  constructor
  · rintro ⟨c, hresolve, rfl⟩
    obtain ⟨m, hm⟩ := resolve_eq_some_iff_firstAt.mp hresolve
    obtain ⟨d, rfl, hd⟩ := (hfirst m c).mp hm
    exact ⟨d, hd⟩
  · rintro ⟨d, hd⟩
    exact ⟨d.map (·, n), resolve_eq_some_iff_firstAt.mpr
      ⟨n, (hfirst n _).mpr ⟨d, rfl, hd⟩⟩, rfl⟩

/-- **A keyword selects nothing** exactly if it stands for nothing. -/
theorem resolve_eq_none_iff :
    t.resolve keyword = none ↔ ∀ c ∈ t.commands, ¬ Abbreviates keyword c := by
  by_cases hempty : keyword = ""
  · subst hempty
    exact iff_of_true rfl fun c _ h => h.1 rfl
  · rw [resolve_eq_find? hempty, List.find?_eq_none]
    refine forall₂_congr fun c _ => not_congr ?_
    rw [begins_iff]
    exact (and_iff_right hempty).symm

/-- **The name of a command selects it** if it is not empty and begins no
name before. -/
theorem selectsAt_name_iff (hc : t.commands[n]? = some c) :
    t.SelectsAt c.keyword n ↔ c.keyword ≠ "" ∧ ∀ m < n, ∀ d,
      t.commands[m]? = some d → ¬ c.keyword.toList <+: d.keyword.toList := by
  rw [selectsAt_iff]
  constructor
  · rintro ⟨c', -, ⟨hne, -⟩, hbefore⟩
    exact ⟨hne, fun m hm d hd hprefix => hbefore m hm d hd ⟨hne, hprefix⟩⟩
  · rintro ⟨hne, hbefore⟩
    exact ⟨c, hc, ⟨hne, List.prefix_rfl⟩,
      fun m hm d hd habb => hbefore m hm d hd habb.2⟩

/-- **A keyword that selects a command** can be replaced by its name. -/
theorem selectsAt_name (hc : t.commands[n]? = some c)
    (h : t.SelectsAt keyword n) : t.SelectsAt c.keyword n := by
  obtain ⟨c', hdeclared, ⟨hne, hprefix⟩, hbefore⟩ := selectsAt_iff.mp h
  obtain rfl := Option.some.inj (hdeclared.symm.trans hc)
  refine (selectsAt_name_iff hc).mpr ⟨?_, fun m hm d hd hname => ?_⟩
  · intro hempty
    rw [hempty] at hprefix
    exact hne (String.toList_eq_nil_iff.mp (List.prefix_nil.mp hprefix))
  · -- what begins with the name begins with the keyword
    exact hbefore m hm d hd ⟨hne, hprefix.trans hname⟩

/-- **The order of selection, and what is hidden by it.** A keyword selects
the command at a place if it stands for it and for none declared before, in
the core table first and then in the extended table; what is found is the
command that is declared there, and nothing is found exactly if the keyword
stands for nothing. So a keyword that stands for one command only selects
that command, and one that stands for several of the same name, and for no
others, selects a command of that name. A command can be selected exactly
if its own name selects it, which is so if the name is not empty and neither
begins nor is the name of a command before. -/
theorem selection_order (t : Tables α) :
    (∀ keyword c, t.resolve keyword = some c ↔
        ∃ n, t.SelectsAt keyword n ∧ t.commands[n]? = some c)
      ∧ (∀ keyword n, t.SelectsAt keyword n ↔ ∃ c,
        (t.core ++ t.extended)[n]? = some c ∧ Abbreviates keyword c
          ∧ ∀ m < n, ∀ d, (t.core ++ t.extended)[m]? = some d →
            ¬ Abbreviates keyword d)
      ∧ (∀ keyword, t.resolve keyword = none ↔
        ∀ c ∈ t.core ++ t.extended, ¬ Abbreviates keyword c)
      ∧ (∀ keyword n c, t.commands[n]? = some c → Abbreviates keyword c →
        (∀ m d, t.commands[m]? = some d → Abbreviates keyword d → m = n) →
        t.SelectsAt keyword n)
      ∧ (∀ keyword name,
        (∃ c ∈ t.commands, Abbreviates keyword c ∧ c.keyword = name) →
        (∀ c ∈ t.commands, Abbreviates keyword c → c.keyword = name) →
        ∃ c, t.resolve keyword = some c ∧ c.keyword = name)
      ∧ ∀ n c, t.commands[n]? = some c →
        ((∃ keyword, t.SelectsAt keyword n) ↔ t.SelectsAt c.keyword n)
          ∧ (t.SelectsAt c.keyword n ↔ c.keyword ≠ "" ∧ ∀ m < n, ∀ d,
            t.commands[m]? = some d →
              ¬ c.keyword.toList <+: d.keyword.toList) := by
  have hfound : ∀ keyword c, Abbreviates keyword c → c ∈ t.commands →
      ∃ n d, t.FirstAt keyword n d := by
    intro keyword c habb hc
    cases hresolve : t.resolve keyword with
    | none => exact absurd habb (resolve_eq_none_iff.mp hresolve c hc)
    | some d =>
      obtain ⟨n, hn⟩ := resolve_eq_some_iff_firstAt.mp hresolve
      exact ⟨n, d, hn⟩
  refine ⟨fun keyword c => ?_, fun keyword n => ?_,
    fun keyword => resolve_eq_none_iff, fun keyword n c hc habb honly => ?_,
    fun keyword name hsome hall => ?_, fun n c hc =>
      ⟨⟨fun h => ?_, fun h => ⟨_, h⟩⟩, selectsAt_name_iff hc⟩⟩
  · rw [resolve_eq_some_iff_firstAt]
    constructor
    · rintro ⟨n, hn⟩
      exact ⟨n, selectsAt_iff.mpr ⟨c, hn⟩, hn.declared⟩
    · rintro ⟨n, hn, hc⟩
      obtain ⟨d, hd⟩ := selectsAt_iff.mp hn
      obtain rfl := Option.some.inj (hd.declared.symm.trans hc)
      exact ⟨n, hd⟩
  · rw [selectsAt_iff]
    exact exists_congr fun c =>
      ⟨fun h => ⟨h.declared, h.abbreviates, h.before⟩,
        fun ⟨hd, ha, hb⟩ => ⟨hd, ha, hb⟩⟩
  · obtain ⟨m, d, hd⟩ := hfound keyword c habb (List.mem_of_getElem? hc)
    obtain rfl := honly m d hd.declared hd.abbreviates
    exact selectsAt_iff.mpr ⟨d, hd⟩
  · obtain ⟨c, hc, habb, -⟩ := hsome
    obtain ⟨n, d, hd⟩ := hfound keyword c habb hc
    exact ⟨d, resolve_eq_some_iff_firstAt.mpr ⟨n, hd⟩,
      hall d (List.mem_of_getElem? hd.declared) hd.abbreviates⟩
  · obtain ⟨keyword, hkeyword⟩ := h
    exact selectsAt_name hc hkeyword

end Tables

/-- **No standard command is hidden** by another. -/
theorem Standard.selectsAt_name {n : Nat} {c : Command Handler}
    (hc : Standard.tables.commands[n]? = some c) :
    Standard.tables.SelectsAt c.keyword n := by
  have hkeywords : ∀ n < 25, ∀ m < n,
      ¬ ((tables.commands.map (·.keyword))[n]?.getD "").toList
        <+: ((tables.commands.map (·.keyword))[m]?.getD "").toList := by
    decide +kernel
  have hnonempty : ∀ k ∈ tables.commands.map (·.keyword), k ≠ "" := by
    decide +kernel
  refine (Tables.selectsAt_name_iff hc).mpr
    ⟨hnonempty _ (List.mem_map_of_mem (List.mem_of_getElem? hc)),
      fun m hm d hd hprefix => ?_⟩
  have hn : n < 25 := (List.getElem?_eq_some_iff.mp hc).1
  have hnot := hkeywords n hn m hm
  rw [List.getElem?_map, List.getElem?_map, hc, hd] at hnot
  exact hnot hprefix

end NtpQuery
