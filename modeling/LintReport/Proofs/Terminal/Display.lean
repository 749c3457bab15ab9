/-
  LintReport.Proofs.Terminal.Display — what a terminal makes of a text.

  A terminal reads a text from the left. A complete control sequence it takes in, and may change the
  attributes it shows characters in; any other character it shows, in the attributes set at that
  moment. Nothing is settled here about what the attributes are and what sequences do to them, but
  that a full reset clears them all.

  Proved:
  - `signals_append_cons`: up to a barrier a text is read as if it ended there.
  - `map_fst_cells`: what is shown is the text without its control sequences.
  - `state_append_cons` / `cells_append_cons`: the attributes are all that a text hands on over a
    barrier.
-/

import LintReport.Proofs.Terminal.Residue
import LintReport.Terminal.Style

namespace LintReport.Terminal

inductive Signal where
  | glyph (c : Char)
  | control (q : Text)
  deriving DecidableEq, Repr

def signalsFrom : Nat → Text → List Signal
  | _, [] => []
  | k + 1, _ :: cs => signalsFrom k cs
  | 0, c :: cs =>
    match sequenceRule (c :: cs) with
    | some hit => .control (c :: cs.take hit.more) :: signalsFrom hit.more cs
    | none => .glyph c :: signalsFrom 0 cs

def signals (s : Text) : List Signal := signalsFrom 0 s

/-- A terminal: the attributes that may be set, none of them at first, and what each control
sequence makes of them. -/
structure Device (σ : Type) where
  clear : σ
  apply : Text → σ → σ
  apply_fullReset : ∀ a, apply Style.fullReset a = clear

/-! ## Characters on a line -/

/-- A character that stands on a line: no ESC and no line break, nor part of one. -/
def IsGlyph (c : Char) : Prop := c ≠ esc ∧ c ≠ '\n' ∧ c ≠ '\r'

instance : DecidablePred IsGlyph := fun _ => inferInstanceAs (Decidable (_ ∧ _))

theorem plain_of_glyphs {s : Text} (hs : ∀ c ∈ s, IsGlyph c) : esc ∉ s ∧ '\n' ∉ s :=
  ⟨fun m => (hs _ m).1 rfl, fun m => (hs _ m).2.1 rfl⟩

theorem isGlyph_ofInt (n : Int) : ∀ c ∈ Text.Numeral.ofInt n, IsGlyph c := by
  have digit {c : Char} (h : c.isDigit = true) : IsGlyph c := by
    refine ⟨?_, ?_, ?_⟩ <;> rintro rfl <;> exact absurd h (by decide)
  have digits (n : Nat) : ∀ c ∈ Text.Numeral.ofNat n, IsGlyph c :=
    fun c hc => digit (Text.Numeral.ofNat_isDigit hc)
  cases n with
  | ofNat n => exact digits n
  | negSucc n => exact List.forall_mem_cons.mpr ⟨by decide, digits (n + 1)⟩

/-! ## Signals -/

theorem signalsFrom_eq (k : Nat) (s : Text) : signalsFrom k s = signals (s.drop k) := by
  induction s generalizing k with
  | nil => cases k <;> simp [signals, signalsFrom]
  | cons c cs ih =>
    cases k with
    | zero => rfl
    | succ k => rw [signalsFrom, ih]; rfl

theorem signals_cons_of_miss {c : Char} {s : Text} (h : sequenceRule (c :: s) = none) :
    signals (c :: s) = .glyph c :: signals s := by
  rw [signals, signalsFrom, h]
  rfl

theorem signals_cons_of_ne {c : Char} (h : c ≠ esc) (s : Text) :
    signals (c :: s) = .glyph c :: signals s := signals_cons_of_miss (sequenceRule_of_ne h s)

theorem signals_sequence_append {q : Text} (h : IsSequence q) (s : Text) :
    signals (q ++ s) = .control q :: signals s := by
  have hit := sequenceRule_sequence_append h s
  obtain ⟨x, rfl, -⟩ := exists_tail_of_isSequence h
  rw [List.cons_append] at hit ⊢
  rw [signals, signalsFrom, hit]
  simp [signalsFrom_eq]

theorem signals_append_of_plain {s : Text} (h : esc ∉ s) (t : Text) :
    signals (s ++ t) = s.map .glyph ++ signals t := by
  induction s with
  | nil => rfl
  | cons c s ih =>
    have hc : c ≠ esc := fun e => h (e ▸ List.mem_cons_self)
    rw [List.cons_append, signals_cons_of_ne hc, ih fun m => h (List.mem_cons_of_mem c m)]
    rfl

/-- Up to a barrier a text is read as if it ended there. -/
theorem signals_append_cons {c : Char} (h : Barrier c) (s t : Text) :
    signals (s ++ c :: t) = signals s ++ signals (c :: t) := by
  induction s using scan_induction with
  | nil => rfl
  | kept d s miss ih =>
    have miss' : sequenceRule (d :: s ++ c :: t) = none := by
      rw [sequenceRule_append_cons h (List.cons_ne_nil d s), miss]
    rw [List.cons_append] at miss' ⊢
    rw [signals_cons_of_miss miss', ih, signals_cons_of_miss miss]
    rfl
  | removed q s hq ih =>
    rw [List.append_assoc, signals_sequence_append hq, ih, signals_sequence_append hq]
    rfl

namespace Device

variable {σ : Type} (d : Device σ)

def step (a : σ) : Signal → σ
  | .glyph _ => a
  | .control q => d.apply q a

def shown : σ → List Signal → List (Char × σ)
  | _, [] => []
  | a, .glyph c :: rest => (c, a) :: shown a rest
  | a, .control q :: rest => shown (d.apply q a) rest

def state (a : σ) (s : Text) : σ := (signals s).foldl d.step a

/-- The characters of a text that are shown, each with the attributes it is shown in. -/
def cells (a : σ) (s : Text) : List (Char × σ) := d.shown a (signals s)

/-! ## Attributes -/

variable (a : σ)

theorem shown_append (x y : List Signal) :
    d.shown a (x ++ y) = d.shown a x ++ d.shown (x.foldl d.step a) y := by
  induction x generalizing a with
  | nil => rfl
  | cons signal x ih =>
    cases signal with
    | glyph c => exact congrArg ((c, a) :: ·) (ih a)
    | control q => exact ih (d.apply q a)

/-- What is shown is the text without its control sequences. -/
theorem map_fst_cells (s : Text) : (d.cells a s).map Prod.fst = unstyled s := by
  unfold cells
  induction s using scan_induction generalizing a with
  | nil => rfl
  | kept c s miss ih =>
    rw [signals_cons_of_miss miss, unstyled_cons_of_miss miss, shown, List.map_cons, ih]
  | removed q s hq ih =>
    rw [signals_sequence_append hq, unstyled_sequence_append hq, shown, ih]

theorem cells_sequence_append {q : Text} (h : IsSequence q) (s : Text) :
    d.cells a (q ++ s) = d.cells (d.apply q a) s := by
  rw [cells, signals_sequence_append h]
  rfl

theorem cells_cons_of_ne {c : Char} (h : c ≠ esc) (s : Text) :
    d.cells a (c :: s) = (c, a) :: d.cells a s := by
  rw [cells, signals_cons_of_ne h]
  rfl

theorem cells_append_of_plain {s : Text} (h : esc ∉ s) (t : Text) :
    d.cells a (s ++ t) = s.map (·, a) ++ d.cells a t := by
  induction s with
  | nil => rfl
  | cons c s ih =>
    have hc : c ≠ esc := fun e => h (e ▸ List.mem_cons_self)
    rw [List.cons_append, cells_cons_of_ne d a hc, ih fun m => h (List.mem_cons_of_mem c m)]
    rfl

/-- Behind a text with a barrier in it the attributes are those that the part from the barrier on
makes of the ones before it. -/
theorem state_append_cons {c : Char} (h : Barrier c) (s t : Text) :
    d.state a (s ++ c :: t) = d.state (d.state a s) (c :: t) := by
  rw [state, signals_append_cons h, List.foldl_append]
  rfl

/-- The attributes are all that a text hands on over a barrier. -/
theorem cells_append_cons {c : Char} (h : Barrier c) (s t : Text) :
    d.cells a (s ++ c :: t) = d.cells a s ++ d.cells (d.state a s) (c :: t) := by
  rw [cells, signals_append_cons h, shown_append]
  rfl

theorem state_of_plain {s : Text} (h : esc ∉ s) : d.state a s = a := by
  rw [← List.append_nil s, state, signals_append_of_plain h, List.foldl_append, List.foldl_map]
  induction s with
  | nil => rfl
  | cons c s ih => exact ih fun m => h (List.mem_cons_of_mem c m)

theorem state_append_code (s : Text) (n : Nat) :
    d.state a (s ++ code n) = d.apply (code n) (d.state a s) := by
  have alone : d.state (d.state a s) (code n) = d.apply (code n) (d.state a s) := by
    rw [← List.append_nil (code n), state, signals_sequence_append (isSequence_code n)]
    rw [List.append_nil]
    rfl
  rw [← alone]
  exact d.state_append_cons a barrier_esc s _

/-- Whatever stands before it, a full reset clears all attributes. -/
theorem state_append_fullReset (s : Text) : d.state a (s ++ Style.fullReset) = d.clear := by
  rw [Style.fullReset, state_append_code]
  exact d.apply_fullReset _

theorem cells_fullReset_append (s : Text) :
    d.cells a (Style.fullReset ++ s) = d.cells d.clear s := by
  rw [Style.fullReset, cells_sequence_append d a (isSequence_code 0)]
  exact congrArg (d.cells · s) (d.apply_fullReset a)

/-- What is behind a full reset is shown as by itself. -/
theorem cells_append_fullReset (s t : Text) :
    d.cells a (s ++ (Style.fullReset ++ t)) = d.cells a s ++ d.cells d.clear t := by
  rw [← cells_fullReset_append d (d.state a s) t]
  exact d.cells_append_cons a barrier_esc s _

end Device

end LintReport.Terminal
