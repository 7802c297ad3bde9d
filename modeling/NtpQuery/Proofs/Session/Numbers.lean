import NtpQuery.Net.Script
import NtpQuery.Proofs.Command.Numeric
import NtpQuery.Proofs.Session.Printing

/-!
# Numbers that are set and shown

In an open session with the standard commands, a numeric setting is made of
a text exactly if the text is a number in the range of the setting. The
command that has set it shows it afterwards, in canonical decimal. A text
that is not such a number changes nothing, and the failure says which of two
things is wrong with it: that it is no number, or that it is one that the
command does not take (`Session.numeric_settings`).
-/

namespace NtpQuery

open Text

variable {τ : Type} [Transport τ] {x : NumericSetting} {n : Int}
variable {t : String}

/-- **The command of a numeric setting** is performed with the number that
its argument is. -/
theorem Run.dispatch_numeric (hplain : t.toList.head? ≠ some '&')
    (hread : x.Reads n t) (more : List String) (r : Run τ Tape) :
    Run.dispatch Standard.tables x.keyword (t :: more) r
      = Run.ofCommand x.keyword
        (r.perform (Standard.tables.map fun _ => ())
          (x.action ⟨x.keyword, [x.argument n]⟩)) := by
  obtain ⟨c, hresolve, hkeyword, hslots, haction⟩ := x.exists_resolve
  have hinvocation : Coercion.invocation x.keyword c.slots (t :: more) r
      = (.ok ⟨x.keyword, [x.argument n]⟩, r) := by
    rw [hslots, Coercion.invocation_one,
      show (optional x.kind).kind = x.kind from rfl,
      NumericSetting.coerce_of_reads hplain hread]
    rfl
  rw [Run.dispatch_of_reading hresolve hinvocation, haction, hkeyword]

namespace Session

variable {s : Session τ}

/-- **Without an argument**, the command of a numeric setting shows it. -/
theorem comesTo_show (hs : s.Reached) (hready : s.isReady = true)
    (htables : s.tables = Standard.tables) (x : NumericSetting)
    (w : World) :
    s.ComesTo w [x.keyword] (.ok ()) s.client [x.shown s.client.state] := by
  obtain ⟨c, hresolve, -, hslots, haction⟩ := x.exists_resolve
  refine comesTo_of_dispatch hs hready fun r hclient => ?_
  have hinvocation : Coercion.invocation x.keyword c.slots [] r
      = (.ok ⟨x.keyword, []⟩, r) := by
    rw [hslots]
    rfl
  rw [htables, Run.dispatch_of_reading hresolve hinvocation, haction,
    x.perform_show, ← hclient]
  rfl

/-- **A number that the command takes** is set. -/
theorem comesTo_set (hs : s.Reached) (hready : s.isReady = true)
    (htables : s.tables = Standard.tables)
    (hplain : t.toList.head? ≠ some '&') (hread : x.Reads n t)
    (hn : x.Takes n) (w : World) (more : List String) :
    s.ComesTo w (x.keyword :: t :: more) (.ok ())
      (s.client.modify (x.setting n).apply) (x.echo n) := by
  refine comesTo_of_dispatch hs hready fun r hclient => ?_
  rw [htables, Run.dispatch_numeric hplain hread,
    NumericSetting.perform_set _ _ hn, ← hclient]
  rfl

/-- **A number that the command does not take** changes nothing. -/
theorem comesTo_object (hs : s.Reached) (hready : s.isReady = true)
    (htables : s.tables = Standard.tables)
    (hplain : t.toList.head? ≠ some '&') (hread : x.Reads n t)
    (hn : ¬ x.Takes n) (w : World) (more : List String) :
    ∃ e, x.complaint? n = some e ∧ s.ComesTo w (x.keyword :: t :: more)
      (.error (.commandFailed x.keyword (.argument e))) s.client [] := by
  obtain ⟨e, he⟩ := NumericSetting.exists_complaint hread.bounds hn
  refine ⟨e, he, comesTo_of_dispatch hs hready fun r hclient => ?_⟩
  rw [htables, Run.dispatch_numeric hplain hread,
    NumericSetting.perform_object _ _ hread.bounds hn he, Run.told_nil,
    ← hclient]
  rfl

/-- **A text that is no number** of the argument's kind changes nothing. -/
theorem comesTo_refuse (hs : s.Reached) (hready : s.isReady = true)
    (htables : s.tables = Standard.tables)
    (hplain : t.toList.head? ≠ some '&') (hnone : ∀ n, ¬ x.Reads n t)
    (w : World) (more : List String) :
    s.ComesTo w (x.keyword :: t :: more) (.error (x.refusal t)) s.client
      [] := by
  obtain ⟨c, hresolve, -, hslots, -⟩ := x.exists_resolve
  refine comesTo_of_dispatch hs hready fun r hclient => ?_
  unfold Run.dispatch Run.invoke
  rw [htables, hresolve]
  dsimp only
  rw [hslots, Coercion.invocation_one,
    show (optional x.kind).kind = x.kind from rfl,
    NumericSetting.coerce_of_not_reads hplain hnone, Run.told_nil,
    ← hclient]
  rfl

/-- **Numeric settings take exactly their range, and show what was set.**
Let the argument of such a command be a text that does not start with `&`.
If it is a number that the command takes, the setting is made, nothing else
of the client changes, and the command by itself then shows the number. If it
is a number of 64 bits that the command does not take, the command fails and
says so; if it is none, the argument is refused. In both cases the client
stays what it was and nothing is written. So the command succeeds exactly if
the text is a number in its range. There is one such number at most, and it
is shown in canonical decimal. -/
theorem numeric_settings (hs : s.Reached) (hready : s.isReady = true)
    (htables : s.tables = Standard.tables) (x : NumericSetting) {t : String}
    (hplain : t.toList.head? ≠ some '&') (more : List String) (w : World) :
    let argv := x.keyword :: t :: more
    (∀ n, x.Reads n t → x.Takes n →
        s.ComesTo w argv (.ok ()) (s.client.modify (x.setting n).apply)
            (x.echo n)
          ∧ ∀ out w', let e := s.execute w argv out
            e.session.ComesTo w' [x.keyword] (.ok ()) e.session.client
              [x.line n])
      ∧ (∀ n, x.Reads n t → ¬ x.Takes n → ∃ e, x.complaint? n = some e
        ∧ s.ComesTo w argv
          (.error (.commandFailed x.keyword (.argument e))) s.client [])
      ∧ ((∀ n, ¬ x.Reads n t) →
        s.ComesTo w argv (.error (x.refusal t)) s.client [])
      ∧ (∀ out, (s.execute w argv out).result = .ok () ↔
        ∃ n, x.Reads n t ∧ x.Takes n)
      ∧ (∀ m n, x.Reads m t → x.Reads n t → m = n)
      ∧ ∀ n, IsCanonical n (signedDecimal n).toList := by
  intro argv
  have hset : ∀ n, x.Reads n t → x.Takes n →
      s.ComesTo w argv (.ok ()) (s.client.modify (x.setting n).apply)
        (x.echo n) :=
    fun n hread hn => comesTo_set hs hready htables hplain hread hn w more
  have hobject : ∀ n, x.Reads n t → ¬ x.Takes n → ∃ e,
      x.complaint? n = some e ∧ s.ComesTo w argv
        (.error (.commandFailed x.keyword (.argument e))) s.client [] :=
    fun n hread hn => comesTo_object hs hready htables hplain hread hn w more
  have hrefuse : (∀ n, ¬ x.Reads n t) →
      s.ComesTo w argv (.error (x.refusal t)) s.client [] :=
    fun hnone => comesTo_refuse hs hready htables hplain hnone w more
  refine ⟨fun n hread hn => ⟨hset n hread hn, fun out w' => ?_⟩, hobject,
    hrefuse, fun out => ⟨fun hok => ?_, ?_⟩, fun m n hm hn => hm.unique hn,
    isCanonical_signedDecimal⟩
  · intro e
    obtain ⟨he, hready', htables'⟩ := hs.execute w argv out
    have hshow := comesTo_show he (hready'.trans hready)
      (htables'.trans htables) x w'
    have hclient : e.session.client = s.client.modify (x.setting n).apply :=
      (hset n hread hn).client out
    rwa [show x.shown e.session.client.state = x.line n by
      rw [hclient]
      exact NumericSetting.shown_apply hn _] at hshow
  · by_cases hsome : ∃ n, x.Reads n t
    · obtain ⟨n, hread⟩ := hsome
      by_cases hn : x.Takes n
      · exact ⟨n, hread, hn⟩
      · obtain ⟨e, -, hfails⟩ := hobject n hread hn
        exact nomatch hok.symm.trans (hfails.result out)
    · have hfails := hrefuse fun n hread => hsome ⟨n, hread⟩
      exact nomatch hok.symm.trans (hfails.result out)
  · rintro ⟨n, hread, hn⟩
    exact (hset n hread hn).result out

/-- A delay below zero loses the zeros in front; a key of 33 bits is too
large, and one with a letter is no number. -/
theorem numeric_settings_delay :
    let w : World := ⟨0, fun _ => [], .files 8, fun _ => true⟩
    let closed : Session (Exchange Script) :=
      .new {} ⟨⟨[]⟩, []⟩ Standard.tables
    let s := (closed.create w 64).2
    let e := s.execute w ["delay", "-007"] []
    e.result = .ok () ∧ e.session.client.state.delay = -7
      ∧ e.session.written w ["delay"] = utf8 "delay -7 ms\n"
      ∧ s.ComesTo w ["keyid", "4294967296"] (.error
        (.commandFailed "keyid" (.argument (.keyTooLarge 4294967296))))
        s.client []
      ∧ s.ComesTo w ["keyid", "7a"] (.error (.invalidUnsigned "7a")) s.client
        [] := by
  intro w closed s e
  have hs : s.Reached := .answer w (.create 64) (.new {} _ _)
  have hready : s.isReady = true := by decide
  have htables : s.tables = Standard.tables :=
    tables_perform closed (.call w (.create 64))
  have hdelay : NumericSetting.delay.Reads (-7) "-007" :=
    ⟨['0', '0', '7'], Or.inr ⟨rfl, by decide⟩, by decide,
      List.all_eq_true.mp (by decide), by decide, by decide⟩
  have hkey : NumericSetting.key.Reads 4294967296 "4294967296" :=
    ⟨4294967296, rfl, "4294967296".toList, Or.inl rfl, by decide,
      List.all_eq_true.mp (by decide), by decide, by decide⟩
  have hletter : ∀ n, ¬ NumericSetting.key.Reads n "7a" := by
    rintro n ⟨m, -, hm⟩
    exact nomatch readUnsigned?_eq_some_iff.mpr hm
  obtain ⟨hset, -⟩ := numeric_settings hs hready htables .delay
    (t := "-007") (by decide) [] w
  obtain ⟨hsets, hshows⟩ := hset (-7) hdelay (by
    constructor <;> decide)
  obtain ⟨-, hobject, -⟩ := numeric_settings hs hready htables .key
    (t := "4294967296") (by decide) [] w
  obtain ⟨cause, hcause, hfails⟩ := hobject 4294967296 hkey (by
    rintro ⟨-, hle⟩
    exact absurd hle (by decide))
  obtain rfl := Option.some.inj hcause
  obtain ⟨-, -, hrefuse, -⟩ := numeric_settings hs hready htables .key
    (t := "7a") (by decide) [] w
  refine ⟨hsets.result [], ?_, ?_, hfails, hrefuse hletter⟩
  · rw [show e.session.client = _ from hsets.client []]
    rfl
  · exact (hshows [] w).written.trans (by decide +kernel)

end Session

end NtpQuery
