/-
  LintReport.Proofs.Command.Requests — when arguments ask for a report, and with which settings.

  The values of the options are looked at in the order in which they first came, but that order only
  chooses between two complaints. Where there is nothing to complain about the settings can be told
  option by option.

  Proved:
  - `request_eq_report_iff`: the arguments that ask for a report, and the settings they ask for.
  - `ofArguments_color`: an option for colours before the other arguments sets the colours alone.
-/

import LintReport.Command.Arguments

namespace LintReport.Command

namespace Parsed

/-! ## Reports -/

theorem values_eq_ok_iff {p : Parsed} {color : Option ColorChoice} {policy : Policy} :
    p.values = .ok (color, policy) ↔ p.color? = .ok color ∧ p.policy = .ok policy := by
  unfold values
  split <;> cases p.color? <;> cases p.policy <;> simp [bind, Except.bind, pure, Except.pure]

def settings (p : Parsed) (color : Option ColorChoice) (policy : Policy) : Settings where
  policy := policy
  verbose := p.count .verbose
  quiet := p.count .quiet
  noColor := 0 < p.count .noColor
  color := color
  source := p.operands.headD ['-']

/-- A report is asked for when neither help nor version is, all values are known, and there is one
operand at most. -/
theorem request_eq_report_iff {p : Parsed} {s : Settings} :
    p.request = .ok (.report s) ↔
      p.first? Flag.isEager = none ∧ p.operands.length ≤ 1 ∧
        ∃ color policy, p.color? = .ok color ∧ p.policy = .ok policy ∧
          s = p.settings color policy := by
  unfold request
  cases eager : p.first? Flag.isEager with
  | some f => cases f <;> simp
  | none =>
    simp only [true_and]
    cases values : p.values with
    | error e =>
      refine ⟨fun h => by simp [bind, Except.bind] at h, ?_⟩
      intro h
      obtain ⟨-, color, policy, hcolor, hpolicy, -⟩ := h
      rw [values_eq_ok_iff.mpr ⟨hcolor, hpolicy⟩] at values
      cases values
    | ok v =>
      obtain ⟨color, policy⟩ := v
      obtain ⟨hcolor, hpolicy⟩ := values_eq_ok_iff.mp values
      rw [hcolor, hpolicy]
      match hops : p.operands with
      | _ :: _ :: _ => simp [bind, Except.bind]
      | [] | [_] =>
        simp only [bind, Except.bind, pure, Except.pure, settings, hops]
        simp [eq_comm]

/-! ## One more option -/

variable {p : Parsed} {g : Given} {flag : Flag}

theorem value?_prepend_of_ne (h : g.flag ≠ flag) : (p.prepend [g]).value? flag = p.value? flag := by
  simp [value?, prepend, List.find?_append, h]

theorem value?_prepend_self (h : p.value? g.flag = none) :
    (p.prepend [g]).value? g.flag = some g.value := by
  rw [value?, Option.map_eq_none_iff] at h
  simp [value?, prepend, List.find?_append, h]

theorem count_prepend_of_ne (h : g.flag ≠ flag) : (p.prepend [g]).count flag = p.count flag := by
  simp [count, prepend, h]

theorem first?_prepend_of_not {kind : Flag → Bool} (h : kind g.flag = false) :
    (p.prepend [g]).first? kind = p.first? kind := by
  simp [first?, prepend, h]

end Parsed

def ColorChoice.argument (choice : ColorChoice) : Text := "--color=".toList ++ choice.name

theorem wordOf_argument (choice : ColorChoice) :
    wordOf choice.argument = .ok (.options [⟨.color, choice.name⟩]) := by
  cases choice <;> rfl

theorem ofArguments_eq_ok_iff {args : List Text} {r : Request} :
    Request.ofArguments args = .ok r ↔ ∃ p, parse args = .ok p ∧ p.request = .ok r := by
  unfold Request.ofArguments
  cases parse args <;> simp [bind, Except.bind]

/-- An option for colours before the other arguments, where these say nothing about colours. -/
theorem ofArguments_color (choice : ColorChoice) {args : List Text} {s : Settings}
    (h : Request.ofArguments args = .ok (.report s)) (none : s.color = none) :
    Request.ofArguments (choice.argument :: args) =
      .ok (.report { s with color := some choice }) := by
  obtain ⟨p, parsed, asked⟩ := ofArguments_eq_ok_iff.mp h
  obtain ⟨eager, operands, color, policy, hcolor, hpolicy, rfl⟩ :=
    Parsed.request_eq_report_iff.mp asked
  have unset : p.value? .color = .none := by
    unfold Parsed.color? at hcolor
    split at hcolor
    · assumption
    · split at hcolor
      · cases hcolor
        cases none
      · cases hcolor
  refine ofArguments_eq_ok_iff.mpr ⟨p.prepend [⟨.color, choice.name⟩], ?_, ?_⟩
  · simp [parse, wordOf_argument, parsed, Except.map]
  · have set : (p.prepend [⟨.color, choice.name⟩]).color? = .ok (some choice) := by
      have value := Parsed.value?_prepend_self (g := ⟨.color, choice.name⟩) unset
      simp only [Parsed.color?, value, Choice.convert_color]
    have kept : (p.prepend [⟨.color, choice.name⟩]).policy = .ok policy := by
      have value : (p.prepend [⟨.color, choice.name⟩]).value? .mergePolicy =
          p.value? .mergePolicy := Parsed.value?_prepend_of_ne nofun
      rw [← hpolicy, Parsed.policy, value, Parsed.policy]
    refine Parsed.request_eq_report_iff.mpr ⟨?_, operands, some choice, policy, set, kept, ?_⟩
    · rw [Parsed.first?_prepend_of_not (by rfl), eager]
    · have same (flag : Flag) (hf : Flag.color ≠ flag) :
          (p.prepend [⟨.color, choice.name⟩]).count flag = p.count flag :=
        Parsed.count_prepend_of_ne hf
      simp only [Parsed.settings, same .verbose nofun, same .quiet nofun, same .noColor nofun]
      rfl

end LintReport.Command
