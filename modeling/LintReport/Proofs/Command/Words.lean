/-
  LintReport.Proofs.Command.Words — which options arguments give, by how their words are spelled.

  An option is given where a word in front of `--` spells it, by its long name or by its letter
  behind a dash that other letters may share, and the word is not the value of an option before it.

  Proved:
  - `spells_of_wordOf`: all that a word can be, by how it is spelled.
  - `mem_given_iff`: the options without a value that a word gives are the ones it spells.
  - `occursIn_iff`: the options that are counted are the ones that occur among the arguments.
-/

import LintReport.Command.Arguments
import LintReport.Proofs.Text.Lookup
import Mathlib.Data.List.TakeWhile

namespace LintReport.Command

/-! ## Words that give an option -/

namespace Flag

def AreShort (letters : Text) : Prop := ∀ c ∈ letters, c ∈ shortNames.map (·.1)

/-- The word is the long name of the option, or a dash and letters of short options, one of them its
own. -/
def SpelledBy (flag : Flag) (word : Text) : Prop :=
  (word, flag) ∈ longNames ∨
    ∃ letters, word = '-' :: letters ∧ AreShort letters ∧ ∃ c ∈ letters, (c, flag) ∈ shortNames

/-- The word is the long name of an option whose value is the next argument. -/
def Awaited (word : Text) : Prop := ∃ flag : Flag, (word, flag) ∈ longNames ∧ flag.takesValue = true

/-- The option is given among the arguments: in front of `--`, and not as a value. -/
inductive OccursIn (flag : Flag) : List Text → Prop
  | here {word : Text} {rest : List Text} (spelled : flag.SpelledBy word) :
      flag.OccursIn (word :: rest)
  | behind {word : Text} {rest : List Text} (goesOn : word ≠ ['-', '-']) (complete : ¬ Awaited word)
      (occurs : flag.OccursIn rest) : flag.OccursIn (word :: rest)
  | past {word value : Text} {rest : List Text} (awaited : Awaited word)
      (occurs : flag.OccursIn rest) : flag.OccursIn (word :: value :: rest)

/-- The long names differ, begin with two dashes, and hold no equals sign. -/
theorem longNames_spec : ∀ m ∈ longNames,
    longNames.lookup m.1 = some m.2 ∧ ['-', '-'] <+: m.1 ∧ m.1 ≠ ['-', '-'] ∧ '=' ∉ m.1 := by
  decide

theorem shortNames_spec : ∀ m ∈ shortNames,
    shortNames.lookup m.1 = some m.2 ∧ m.1 ≠ '-' ∧ m.1 ≠ '=' := by
  decide

theorem lookup_longNames_iff {name : Text} {flag : Flag} :
    longNames.lookup name = some flag ↔ (name, flag) ∈ longNames :=
  lookup_iff_mem fun m hm => (longNames_spec m hm).1

theorem lookup_shortNames_iff {c : Char} {flag : Flag} :
    shortNames.lookup c = some flag ↔ (c, flag) ∈ shortNames :=
  lookup_iff_mem fun m hm => (shortNames_spec m hm).1

theorem not_mem_of_areShort {letters : Text} (h : AreShort letters) :
    '-' ∉ letters ∧ '=' ∉ letters := by
  constructor
  · intro dash
    obtain ⟨m, hm, eq⟩ := List.mem_map.mp (h _ dash)
    exact (shortNames_spec m hm).2.1 eq
  · intro equals
    obtain ⟨m, hm, eq⟩ := List.mem_map.mp (h _ equals)
    exact (shortNames_spec m hm).2.2 eq

theorem SpelledBy.not_mem {flag : Flag} {word : Text} (h : flag.SpelledBy word) : '=' ∉ word := by
  rcases h with long | ⟨letters, rfl, short, -⟩
  · exact (longNames_spec _ long).2.2.2
  · exact List.not_mem_cons_of_ne_of_not_mem (by decide) (not_mem_of_areShort short).2

theorem Awaited.not_mem {word : Text} (h : Awaited word) : '=' ∉ word := by
  obtain ⟨flag, long, -⟩ := h
  exact (longNames_spec _ long).2.2.2

/-- The end of the options spells none, and awaits no value. -/
theorem not_spelledBy_end (flag : Flag) : ¬ flag.SpelledBy ['-', '-'] := by
  intro h
  rcases h with long | ⟨letters, eq, short, -⟩
  · exact (longNames_spec _ long).2.2.1 rfl
  · cases eq
    exact (not_mem_of_areShort short).1 List.mem_cons_self

/-- A long name is not read as letters behind a dash. -/
theorem spelledBy_of_long {flag named : Flag} {word : Text} (h : (word, named) ∈ longNames) :
    flag.SpelledBy word ↔ flag = named := by
  constructor
  · intro spelled
    rcases spelled with long | ⟨letters, rfl, short, -⟩
    · have same := lookup_longNames_iff.mpr long
      rw [lookup_longNames_iff.mpr h] at same
      exact (Option.some.inj same).symm
    · obtain ⟨rest, eq⟩ := (longNames_spec _ h).2.1
      cases eq
      exact absurd List.mem_cons_self (not_mem_of_areShort short).1
  · rintro rfl
    exact .inl h

end Flag

open LintReport.Command.Flag (Awaited OccursIn)

/-! ## What a word can be -/

theorem exists_of_map_eq_ok {ε α β : Type} {f : α → β} {x : Except ε α} {b : β}
    (h : x.map f = .ok b) : ∃ a, x = .ok a ∧ f a = b := by
  cases x with
  | error e => cases h
  | ok a => exact ⟨a, rfl, Except.ok.inj h⟩

theorem splitValue_of_not_mem {word : Text} (h : '=' ∉ word) : splitValue word = (word, none) := by
  have all : word.dropWhile (· ≠ '=') = [] := by
    refine List.dropWhile_eq_nil_iff.mpr fun c hc => ?_
    simpa using fun eq : c = '=' => h (eq ▸ hc)
  simp only [splitValue, all]

theorem splitValue_none {word name : Text} (h : splitValue word = (name, none)) : name = word := by
  unfold splitValue at h
  split at h
  · cases h
    rfl
  · cases h

theorem splitValue_some {word name value : Text} (h : splitValue word = (name, some value)) :
    '=' ∈ word := by
  unfold splitValue at h
  split at h
  · cases h
  · rename_i c rest cut
    have found : c = '=' := by
      have head := List.head?_dropWhile_not (· ≠ '=') word
      rw [cut] at head
      simpa using head
    have kept : c ∈ word.dropWhile (· ≠ '=') := cut ▸ List.mem_cons_self
    exact (List.dropWhile_sublist _).subset (found ▸ kept)

/-- Letters behind a dash are the short options they name, one by one. -/
theorem parseShort_spec {letters : Text} {given : List Given}
    (h : parseShort letters = .ok given) :
    Flag.AreShort letters ∧ ∀ flag, (∃ g ∈ given, g.flag = flag) ↔
      ∃ c ∈ letters, (c, flag) ∈ Flag.shortNames := by
  induction letters generalizing given with
  | nil =>
    cases h
    exact ⟨nofun, by simp⟩
  | cons c cs ih =>
    unfold parseShort at h
    cases named : Flag.shortNames.lookup c with
    | none => simp only [named, reduceCtorEq] at h
    | some own =>
      simp only [named] at h
      obtain ⟨others, rest, rfl⟩ := exists_of_map_eq_ok h
      obtain ⟨short, same⟩ := ih rest
      have named' := Flag.lookup_shortNames_iff.mp named
      refine ⟨List.forall_mem_cons.mpr ⟨List.mem_map.mpr ⟨_, named', rfl⟩, short⟩, ?_⟩
      intro flag
      have first : own = flag ↔ (c, flag) ∈ Flag.shortNames := by
        rw [← Flag.lookup_shortNames_iff, named, Option.some.injEq]
      simp only [List.mem_cons, or_and_right, exists_or, exists_eq_left, same flag, first]

inductive Word.Spells (word : Text) : Word → Prop
  | ends (dashes : word = ['-', '-']) : Spells word .endOfOptions
  | operand (other : isOption word = false) : Spells word .operand
  | letters {letters : Text} {given : List Given} (dash : word = '-' :: letters)
      (goesOn : word ≠ ['-', '-']) (other : ∀ flag, (word, flag) ∉ Flag.longNames)
      (short : parseShort letters = .ok given) : Spells word (.options given)
  | valued {flag : Flag} {value : Text} (equals : '=' ∈ word) (takes : flag.takesValue = true) :
      Spells word (.options [⟨flag, value⟩])
  | long {flag : Flag} (named : (word, flag) ∈ Flag.longNames) (bare : flag.takesValue = false) :
      Spells word (.options [⟨flag, []⟩])
  | awaits {flag : Flag} (named : (word, flag) ∈ Flag.longNames) (takes : flag.takesValue = true) :
      Spells word (.awaits flag word)

theorem eq_cons_of_isOption {word : Text} (h : isOption word = true) : word = '-' :: word.drop 1 := by
  cases word with
  | nil => cases h
  | cons c cs =>
    have dash : c = '-' := by simpa using (Bool.and_eq_true_iff.mp h).1
    rw [dash]
    rfl

/-- A word is read by how it is spelled, in one of these ways. -/
theorem spells_of_wordOf {word : Text} {w : Word} (h : wordOf word = .ok w) :
    Word.Spells word w := by
  unfold wordOf at h
  split at h
  · rename_i dashes
    cases h
    exact .ends dashes
  · rename_i goesOn
    split at h
    · rename_i other
      cases h
      exact .operand (by simpa using other)
    · rename_i option
      cases cut : splitValue word with
      | mk name value =>
        simp only [cut] at h
        cases named : Flag.longNames.lookup name with
        | none =>
          simp only [named] at h
          split at h
          · cases h
          · obtain ⟨given, short, rfl⟩ := exists_of_map_eq_ok h
            refine .letters (eq_cons_of_isOption (by simpa using option)) goesOn ?_ short
            intro flag long
            rw [splitValue_of_not_mem (Flag.longNames_spec _ long).2.2.2] at cut
            cases cut
            rw [Flag.lookup_longNames_iff.mpr long] at named
            cases named
        | some flag =>
          have named' := Flag.lookup_longNames_iff.mp named
          simp only [named] at h
          cases takes : flag.takesValue with
          | true =>
            cases value with
            | some v =>
              simp only [takes, Except.ok.injEq] at h
              subst h
              exact .valued (splitValue_some cut) takes
            | none =>
              simp only [takes, Except.ok.injEq] at h
              subst h
              rw [splitValue_none cut] at named' ⊢
              exact .awaits named' takes
          | false =>
            cases value with
            | some v => simp only [takes, reduceCtorEq] at h
            | none =>
              simp only [takes, Except.ok.injEq] at h
              subst h
              rw [splitValue_none cut] at named'
              exact .long named' takes

/-! ## Options that are given -/

variable {flag : Flag} {word : Text} {rest : List Text}

/-- A word that is no option spells none and awaits no value. -/
theorem isOption_of_spelledBy (h : flag.SpelledBy word) : isOption word = true := by
  rcases h with long | ⟨letters, rfl, -, c, hc, -⟩
  · obtain ⟨-, ⟨more, rfl⟩, -⟩ := Flag.longNames_spec _ long
    rfl
  · have nonempty := List.length_pos_of_mem hc
    simp [isOption, nonempty]

theorem isOption_of_awaited (h : Awaited word) : isOption word = true := by
  obtain ⟨flag, long, -⟩ := h
  have spelled : flag.SpelledBy word := .inl long
  exact isOption_of_spelledBy spelled

theorem ne_end_of_awaited (h : Awaited word) : word ≠ ['-', '-'] := by
  obtain ⟨flag, long, -⟩ := h
  exact (Flag.longNames_spec _ long).2.2.1

/-- The options a word gives are the ones it spells, as far as they take no value. -/
theorem mem_given_iff {given : List Given} (h : Word.Spells word (.options given))
    (bare : flag.takesValue = false) :
    (∃ g ∈ given, g.flag = flag) ↔ flag.SpelledBy word := by
  cases h with
  | letters dash goesOn other short =>
    obtain ⟨areShort, same⟩ := parseShort_spec short
    rw [same flag]
    constructor
    · exact fun own => .inr ⟨_, dash, areShort, own⟩
    · intro spelled
      rcases spelled with long | ⟨letters', dash', -, own⟩
      · exact absurd long (other flag)
      · cases dash.symm.trans dash'
        exact own
  | @valued named value equals takes =>
    have apart : named ≠ flag := by
      rintro rfl
      rw [bare] at takes
      cases takes
    constructor
    · intro given
      obtain ⟨g, hg, eq⟩ := given
      obtain rfl := List.mem_singleton.mp hg
      exact absurd eq apart
    · exact fun spelled => absurd equals spelled.not_mem
  | @long named long bare =>
    rw [Flag.spelledBy_of_long long]
    simp [eq_comm]

/-- A word that gives options does not end them, and awaits nothing. -/
theorem complete_of_options {given : List Given} (h : Word.Spells word (.options given)) :
    word ≠ ['-', '-'] ∧ ¬ Awaited word := by
  cases h with
  | letters dash goesOn other short =>
    exact ⟨goesOn, fun awaited => other _ awaited.choose_spec.1⟩
  | valued equals takes =>
    refine ⟨?_, fun awaited => awaited.not_mem equals⟩
    rintro rfl
    exact absurd equals (by decide)
  | @long named long bare =>
    refine ⟨(Flag.longNames_spec _ long).2.2.1, ?_⟩
    intro awaited
    obtain ⟨other, long', takes⟩ := awaited
    have same := (Flag.spelledBy_of_long long).mp (.inl long')
    rw [same, bare] at takes
    cases takes

theorem occursIn_cons_iff (goesOn : word ≠ ['-', '-']) (complete : ¬ Awaited word) :
    flag.OccursIn (word :: rest) ↔ flag.SpelledBy word ∨ flag.OccursIn rest := by
  constructor
  · intro h
    cases h with
    | here spelled => exact .inl spelled
    | behind _ _ occurs => exact .inr occurs
    | past awaited _ => exact absurd awaited complete
  · intro h
    rcases h with spelled | occurs
    · exact .here spelled
    · exact .behind goesOn complete occurs

theorem not_spelledBy_of_awaited (h : Awaited word) (bare : flag.takesValue = false) :
    ¬ flag.SpelledBy word := by
  intro spelled
  obtain ⟨named, long, takes⟩ := h
  rw [← (Flag.spelledBy_of_long long).mp spelled, bare] at takes
  cases takes

theorem occursIn_awaited_iff {value : Text} (h : Awaited word) (bare : flag.takesValue = false) :
    flag.OccursIn (word :: value :: rest) ↔ flag.OccursIn rest := by
  constructor
  · intro occurs
    cases occurs with
    | here spelled => exact absurd spelled (not_spelledBy_of_awaited h bare)
    | behind _ complete _ => exact absurd h complete
    | past _ occurs => exact occurs
  · exact .past h

theorem not_occursIn_end : ¬ flag.OccursIn (['-', '-'] :: rest) := by
  intro h
  cases h with
  | here spelled => exact Flag.not_spelledBy_end flag spelled
  | behind goesOn _ _ => exact goesOn rfl
  | past awaited _ => exact ne_end_of_awaited awaited rfl

theorem Parsed.count_pos_iff {p : Parsed} : 0 < p.count flag ↔ ∃ g ∈ p.given, g.flag = flag := by
  simp [Parsed.count, List.countP_pos_iff]

theorem count_prepend {p : Parsed} {given : List Given} :
    0 < (p.prepend given).count flag ↔ (∃ g ∈ given, g.flag = flag) ∨ 0 < p.count flag := by
  simp only [Parsed.count_pos_iff, Parsed.prepend, List.mem_append, or_and_right, exists_or]

/-- The options that are counted are those that occur among the arguments. -/
theorem occursIn_iff {args : List Text} {p : Parsed} (parsed : parse args = .ok p)
    (bare : flag.takesValue = false) : 0 < p.count flag ↔ flag.OccursIn args := by
  -- along the parse: each way on has the one case of an occurrence that goes on with it
  fun_induction parse args generalizing p with
  | case1 =>
    cases parsed
    exact ⟨fun h => absurd h (Nat.lt_irrefl 0), nofun⟩
  | case2 => cases parsed
  | case3 word rest read ih =>
    obtain ⟨q, behind, rfl⟩ := exists_of_map_eq_ok parsed
    cases spells_of_wordOf read with
    | operand other =>
      have plain {spells : Prop} (h : spells → isOption word = true) : ¬ spells := by
        intro s
        rw [h s] at other
        cases other
      have goesOn : word ≠ ['-', '-'] := plain fun dashes => by rw [dashes]; rfl
      rw [occursIn_cons_iff goesOn (plain isOption_of_awaited), ← ih behind]
      exact (or_iff_right (plain isOption_of_spelledBy)).symm
  | case4 word rest read =>
    cases parsed
    cases spells_of_wordOf read with
    | ends dashes =>
      subst dashes
      exact ⟨fun h => absurd h (Nat.lt_irrefl 0), fun h => absurd h not_occursIn_end⟩
  | case5 word rest given read ih =>
    obtain ⟨q, behind, rfl⟩ := exists_of_map_eq_ok parsed
    have spells := spells_of_wordOf read
    obtain ⟨goesOn, complete⟩ := complete_of_options spells
    rw [occursIn_cons_iff goesOn complete, count_prepend, mem_given_iff spells bare, ih behind]
  | case6 => cases parsed
  | case7 word named name read value rest ih =>
    obtain ⟨q, behind, rfl⟩ := exists_of_map_eq_ok parsed
    cases spells_of_wordOf read with
    | awaits long takes =>
      have apart : named ≠ flag := by
        rintro rfl
        rw [bare] at takes
        cases takes
      rw [occursIn_awaited_iff ⟨named, long, takes⟩ bare, ← ih behind, count_prepend]
      simp [apart]

end LintReport.Command
