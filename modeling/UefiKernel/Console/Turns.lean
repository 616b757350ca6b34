import UefiKernel.Console.Lexer
import UefiKernel.Lib.Calculus

/-!
# UefiKernel.Console.Turns

The loop of `_do_vprintf` and the lexer in step.

Everything here is proved in an arbitrary calculus, so it says what every run
does and what some run does.  `TextWorld` lists what a world has to provide:
that it answers the reads of a text, and what becomes of an invariant `R i` in
front of byte `i` when that byte is printed, skipped or converted.  From that,
one turn of the loop leads from a byte of the text to a later one
(`vprintfStep_inStep`), or ends where the text ends.  The five cases are taken
in the order in which they fall through, from the last to the first.
-/

namespace UefiKernel.Console

open Interact Prog

variable {G : Type} {L : Calculus PrintEvent PrintEvent.Answer G}

/-! ## conversions -/

/-- What a conversion may print around the text of its argument. -/
def padding : List UInt8 := bytes " 0x-"

/-- The pointer into the format and the arguments are kept, and `R` holds. -/
def Keeps (R : G → Prop) (v v' : Vars) (g' : G) : Prop :=
  v'.fmt = v.fmt ∧ v'.args = v.args ∧ R g'

/-- Going on from variables with the same pointer and arguments. -/
theorem keeps_of_eq {R : G → Prop} {v v₁ : Vars} {p : PrintM Vars} {g₁ : G} (hfmt : v₁.fmt = v.fmt)
    (hargs : v₁.args = v.args) (hp : L.holds p (Keeps R v₁) g₁) : L.holds p (Keeps R v) g₁ :=
  L.mono (fun _ _ hk => ⟨hk.1.trans hfmt, hk.2.1.trans hargs, hk.2.2⟩) hp

/-- A world in which the text at `str` can be printed: `Before` holds until its
first byte, `After` from its last. -/
structure Emits (L : Calculus PrintEvent PrintEvent.Answer G) (str : CharPtr)
    (Before After : G → Prop) : Prop where
  padLeft : ∀ ch ∈ padding, ∀ g, Before g → L.holds (fn ch) (fun _ g' => Before g') g
  strlen : ∀ g, Before g → L.holds (strlen str) (fun _ g' => Before g') g
  text : ∀ v g, Before g → L.holds (putString str v) (Keeps After v) g
  padRight : ∀ g, After g → L.holds (fn ' '.toUInt8) (fun _ g' => After g') g

section Emit

variable {R : G → Prop} {ch : UInt8}

theorem put_keeps (hch : ∀ g, R g → L.holds (fn ch) (fun _ g' => R g') g) (v : Vars) {g : G}
    (hg : R g) : L.holds (v.put ch) (Keeps R v) g := by
  unfold Vars.put
  refine L.seq (hch g hg) ?_
  intro _ g' hg'
  exact L.pure ⟨rfl, rfl, hg'⟩

theorem putMany_keeps (hch : ∀ g, R g → L.holds (fn ch) (fun _ g' => R g') g) (n : Nat) (v : Vars)
    {g : G} (hg : R g) : L.holds (Vars.putMany ch n v) (Keeps R v) g := by
  induction n generalizing v g with
  | zero => exact L.pure ⟨rfl, rfl, hg⟩
  | succ n ih =>
      unfold Vars.putMany
      refine L.seq (put_keeps hch v hg) ?_
      rintro v₁ g₁ ⟨hfmt, hargs, hg₁⟩
      exact keeps_of_eq hfmt hargs (ih v₁ hg₁)

variable (hpad : ∀ ch ∈ padding, ∀ g, R g → L.holds (fn ch) (fun _ g' => R g') g)

include hpad

theorem putSignIf_keeps (now : Bool) (v : Vars) {g : G} (hg : R g) :
    L.holds (putSignIf now v) (Keeps R v) g := by
  unfold putSignIf putSign
  refine L.ite (fun _ => L.ite (fun _ => ?_) fun _ => ?_) fun _ => L.pure ⟨rfl, rfl, hg⟩
  · refine L.seq (put_keeps (hpad _ (by decide)) v hg) ?_
    rintro v₁ g₁ ⟨hfmt, hargs, hg₁⟩
    exact keeps_of_eq hfmt hargs (put_keeps (hpad _ (by decide)) v₁ hg₁)
  · exact put_keeps (hpad _ (by decide)) v hg

theorem padLeft_keeps (actualWd : UInt64) (v : Vars) {g : G} (hg : R g) :
    L.holds (padLeft actualWd v) (Keeps R v) g := by
  unfold padLeft
  refine L.ite (fun _ => L.pure ⟨rfl, rfl, hg⟩) fun _ => ?_
  have hch : (if v.flags.padLeft0 then '0'.toUInt8 else ' '.toUInt8) ∈ padding := by
    cases v.flags.padLeft0 <;> decide
  refine L.seq (putMany_keeps (hpad _ hch) _ v hg) ?_
  rintro v₁ g₁ hk
  exact L.pure hk

end Emit

theorem emit_keeps {str : CharPtr} {Before After : G → Prop} (hw : Emits L str Before After)
    (v : Vars) {g : G} (hg : Before g) : L.holds (emit v str) (Keeps After v) g := by
  unfold emit
  refine L.seq (hw.strlen g hg) ?_
  intro length g₁ hg₁
  refine L.seq (putSignIf_keeps hw.padLeft _ v hg₁) ?_
  rintro v₂ g₂ ⟨hfmt₂, hargs₂, hg₂⟩
  refine L.seq (padLeft_keeps hw.padLeft _ v₂ hg₂) ?_
  rintro v₃ g₃ ⟨hfmt₃, hargs₃, hg₃⟩
  refine L.seq (putSignIf_keeps hw.padLeft _ v₃ hg₃) ?_
  rintro v₄ g₄ ⟨hfmt₄, hargs₄, hg₄⟩
  refine L.seq (hw.text v₄ g₄ hg₄) ?_
  rintro v₅ g₅ ⟨hfmt₅, hargs₅, hg₅⟩
  have hfmt : v₅.fmt = v.fmt := by rw [hfmt₅, hfmt₄, hfmt₃, hfmt₂]
  have hargs : v₅.args = v.args := by rw [hargs₅, hargs₄, hargs₃, hargs₂]
  refine L.mono ?_ (putMany_keeps hw.padRight _ _ hg₅)
  rintro v₆ g₆ ⟨hfmt₆, hargs₆, hg₆⟩
  exact ⟨hfmt₆.trans hfmt, hargs₆.trans hargs, hg₆⟩

/-- A conversion with its argument at hand. -/
theorem convert_cons (flags : Flags) (arg : UInt64) (args : List UInt64) (conversion : Conversion) :
    ∃ conv, convert flags (arg :: args) conversion = pure conv ∧ conv.args = args := by
  cases conversion with
  | p | s =>
      by_cases harg : arg = 0
      · exact ⟨_, if_pos harg, rfl⟩
      · exact ⟨_, if_neg harg, rfl⟩
  | x | X | d | u | o | c => exact ⟨_, rfl, rfl⟩

/-- All but `%s` print a text of the kernel's own. -/
theorem convert_lit {flags : Flags} {arg : UInt64} {args : List UInt64} {conversion : Conversion}
    {conv : Converted} (hs : conversion ≠ .s)
    (hconv : convert flags (arg :: args) conversion = pure conv) :
    ∃ text, conv.str = .lit text := by
  cases conversion with
  | s => exact absurd rfl hs
  | p =>
      by_cases h0 : arg = 0
      · exact ⟨_, (congrArg Converted.str (ret.inj ((if_pos h0).symm.trans hconv))).symm⟩
      · exact ⟨_, (congrArg Converted.str (ret.inj ((if_neg h0).symm.trans hconv))).symm⟩
  | x | X | d | u | o | c => exact ⟨_, (congrArg Converted.str (ret.inj hconv)).symm⟩

/-- A conversion fetches its argument first. -/
theorem convert_eq (flags : Flags) (args : List UInt64) (conversion : Conversion) :
    convert flags args conversion =
      vaArg args >>= fun r => convert flags (r.1 :: r.2) conversion := by
  cases conversion <;> cases args <;> rfl

/-- The conversion of `case 4`, up to the jump back to state 0. -/
def convertAndEmit (v : Vars) (conversion : Conversion) : PrintM Vars := do
  let conv ← convert v.flags v.args conversion
  emit { v with flags := conv.flags, args := conv.args } conv.str

theorem awaitConversion_some {v : Vars} {ch : UInt8} {conversion : Conversion}
    (h : Conversion.ofChar ch = some conversion) :
    awaitConversion v ch = convertAndEmit v conversion >>= fun v => pure v.reset := by
  unfold awaitConversion convertAndEmit
  rw [h]
  exact (bind_assoc _ _ _).symm

/-- A conversion in a world that provides the argument and prints its text. -/
theorem convertAndEmit_keeps {v : Vars} {conversion : Conversion} {Before After : G → Prop}
    {args' : List UInt64} {g : G}
    (hva : L.holds (vaArg v.args) (fun r g' => r.2 = args' ∧ Before g' ∧
      ∀ conv, convert v.flags (r.1 :: r.2) conversion = pure conv →
        Emits L conv.str Before After) g) :
    L.holds (convertAndEmit v conversion)
      (fun v' g' => v'.fmt = v.fmt ∧ v'.args = args' ∧ After g') g := by
  unfold convertAndEmit
  rw [convert_eq, bind_eq, bind_eq, bind_assoc]
  refine L.bind (L.mono ?_ hva)
  rintro ⟨arg, args⟩ g₁ ⟨hargs, hg₁, hemits⟩
  obtain ⟨conv, hconv, hconvArgs⟩ := convert_cons v.flags arg args conversion
  show L.holds ((convert v.flags (arg :: args) conversion).bind _) _ _
  rw [hconv]
  refine L.mono ?_ (emit_keeps (hemits conv hconv)
    { v with flags := conv.flags, args := conv.args } hg₁)
  rintro v' g' ⟨hfmt, hargs', hg'⟩
  exact ⟨hfmt, hargs'.trans (hconvArgs.trans hargs), hg'⟩

/-! ## a world with a text -/

/-- A world that provides the text `b` at `fmtAt`.  Byte `i` is read only if it
is `Live`; unless the text ends there, the next byte is live.  `R i args` holds
in front of byte `i` with the arguments `args` left, and `Seen i` right after
byte `i` was read at the start of a turn. -/
structure TextWorld (L : Calculus PrintEvent PrintEvent.Answer G) (fmtAt : Nat → CharPtr)
    (b : Nat → UInt8) (Live : Nat → Prop) (Seen : Nat → G → Prop)
    (R : Nat → List UInt64 → G → Prop) : Prop where
  next : ∀ i, (fmtAt i).next = fmtAt (i + 1)
  load : ∀ i args g, Live i → R i args g → L.holds ((fmtAt i).deref .fmt)
    (fun ch g' => ch = b i ∧ R i args g' ∧ Seen i g' ∧
      (¬ (lexAt b i).ends (b i) → Live (i + 1))) g
  ahead : ∀ i args g, Live (i + 1) → Lex.looksAhead (b i) → R i args g →
    L.holds ((fmtAt (i + 1)).deref .fmt)
      (fun ch g' => ch = b (i + 1) ∧ R i args g' ∧
        (¬ (lexAt b (i + 1)).ends (b (i + 1)) → Live (i + 2))) g
  skip : ∀ i args g, Live (i + 1) → (lexAt b i).converts (b i) = false →
    (lexAt b i).emits (b i) = [] → R i args g → R (i + 1) args g
  put : ∀ i args g, Live (i + 1) → (lexAt b i).converts (b i) = false →
    (lexAt b i).emits (b i) = [b i] → R i args g →
    L.holds (fn (b i)) (fun _ g' => R (i + 1) args g') g
  convert : ∀ i v g conversion, Live (i + 1) → (lexAt b i).converts (b i) →
    Conversion.ofChar (b i) = some conversion → R i v.args g →
    L.holds (convertAndEmit v conversion)
      (fun v' g' => v'.fmt = v.fmt ∧ R (i + 1) v'.args g') g

section Cases

variable {fmtAt : Nat → CharPtr} {b : Nat → UInt8} {Live : Nat → Prop} {Seen : Nat → G → Prop}
  {R : Nat → List UInt64 → G → Prop}

/-- Between two turns: the pointer is at byte `i`, and the lexer is in the
state the formatter is in. -/
structure InStep (fmtAt : Nat → CharPtr) (b : Nat → UInt8) (Live : Nat → Prop)
    (R : Nat → List UInt64 → G → Prop) (i : Nat) (v : Vars) (g : G) : Prop where
  fmt : v.fmt = fmtAt i
  live : Live i
  top : (lexAt b i).top = some v.state
  inv : R i v.args g

/-- At the end of a turn, in front of `fmt++`: the turn has gone beyond byte
`i`. -/
def TurnEnds (fmtAt : Nat → CharPtr) (b : Nat → UInt8) (Live : Nat → Prop)
    (R : Nat → List UInt64 → G → Prop) (i : Nat) (v : Vars) (g : G) : Prop :=
  ∃ j, i < j ∧ InStep fmtAt b Live R j { v with fmt := v.fmt.next } g

/-- The formatter at the start of its text. -/
theorem inStep_zero (hlive : Live 0) {args : List UInt64} {g : G} (hg : R 0 args g) :
    InStep fmtAt b Live R 0 { fmt := fmtAt 0, args } g :=
  { fmt := rfl, live := hlive, top := rfl, inv := hg }

theorem TurnEnds.mono {i j : Nat} {v : Vars} {g : G} (hij : i ≤ j)
    (h : TurnEnds fmtAt b Live R j v g) : TurnEnds fmtAt b Live R i v g := by
  obtain ⟨k, hk, hstep⟩ := h
  exact ⟨k, Nat.lt_of_le_of_lt hij hk, hstep⟩

variable (hw : TextWorld L fmtAt b Live Seen R) {i : Nat} (hlive : Live (i + 1)) {v : Vars}
  (hfmt : v.fmt = fmtAt i) {g : G}

include hw hlive hfmt

/-- A turn that ends at byte `i`. -/
theorem turnEnds (htop : ((lexAt b i).next (b i)).top = some v.state) (hg : R (i + 1) v.args g) :
    TurnEnds fmtAt b Live R i v g :=
  ⟨i + 1, Nat.lt_succ_self i,
    { fmt := by rw [hfmt, hw.next], live := hlive, top := htop, inv := hg }⟩

/-- A turn that ends at a byte that prints nothing. -/
theorem turnEnds_of_skip (htop : ((lexAt b i).next (b i)).top = some v.state)
    (hstate : v.state ≠ .percent) (hg : R i v.args g) : TurnEnds fmtAt b Live R i v g := by
  have hnext : (lexAt b i).next (b i) ≠ .text := by
    intro h
    rw [h] at htop
    exact hstate (Option.some.inj htop).symm
  refine turnEnds hw hlive hfmt htop (hw.skip i _ g hlive (Lex.converts_eq_false hnext) ?_ hg)
  rw [Lex.emits, if_neg hnext]

/-- Printing the byte the turn is at. -/
theorem put_inv (hconv : (lexAt b i).converts (b i) = false)
    (hnext : (lexAt b i).next (b i) = .text) (hg : R i v.args g) :
    L.holds (v.put (b i)) (fun v' g' => v'.fmt = fmtAt i ∧ v'.state = v.state ∧
      R (i + 1) v'.args g') g := by
  have hemits : (lexAt b i).emits (b i) = [b i] := by rw [Lex.emits, if_pos hnext]
  unfold Vars.put
  refine L.seq (hw.put i v.args g hlive hconv hemits hg) ?_
  intro _ g' hg'
  exact L.pure ⟨hfmt, rfl, hg'⟩

theorem awaitConversion_turnEnds (hq : lexAt b i ≠ .text)
    (hnext : (lexAt b i).next (b i) = .text) (hg : R i v.args g) :
    L.holds (awaitConversion v (b i)) (TurnEnds fmtAt b Live R i) g := by
  cases hconv : Conversion.ofChar (b i) with
  | some conversion =>
      have hconverts : (lexAt b i).converts (b i) := by simp [Lex.converts, hq, hconv]
      rw [awaitConversion_some hconv]
      refine L.seq (hw.convert i v g conversion hlive hconverts hconv hg) ?_
      rintro v' g' ⟨hfmt', hg'⟩
      refine L.pure (turnEnds (v := v'.reset) hw hlive (hfmt'.trans hfmt) ?_ hg')
      rw [hnext]
      rfl
  | none =>
      unfold awaitConversion
      rw [hconv]
      refine L.seq (put_inv hw hlive hfmt (by simp [Lex.converts, hconv]) hnext hg) ?_
      rintro v' g' ⟨hfmt', -, hg'⟩
      refine L.pure (turnEnds (v := v'.reset) hw hlive hfmt' ?_ hg')
      rw [hnext]
      rfl

theorem awaitModifier_turnEnds (hq : lexAt b i ≠ .text)
    (hnext : (lexAt b i).next (b i) = Lex.inModifier (b i)) (hg : R i v.args g) :
    L.holds (awaitModifier v (b i)) (TurnEnds fmtAt b Live R i) g := by
  -- a modifier, alone
  have hmod : isModifier (b i) = true → ∀ flags g', R i v.args g' →
      TurnEnds fmtAt b Live R i { v with state := .modifier, flags, fmt := fmtAt i } g' := by
    intro h flags g' hg'
    refine turnEnds_of_skip hw hlive rfl ?_ (by simp) hg'
    rw [hnext, Lex.inModifier, if_pos h]
    rfl
  -- a modifier and the same byte again
  have htwice : Lex.looksAhead (b i) = true → b (i + 1) = b i →
      (¬ (lexAt b (i + 1)).ends (b (i + 1)) → Live (i + 2)) → ∀ flags g', R i v.args g' →
      TurnEnds fmtAt b Live R i { v with state := .modifier, flags, fmt := fmtAt (i + 1) } g' := by
    intro h htwo hlive₂ flags g' hg'
    have hmod₁ : isModifier (b i) = true := by grind [isModifier, Lex.looksAhead]
    have hlex : (lexAt b i).next (b i) = .modifier := by rw [hnext, Lex.inModifier, if_pos hmod₁]
    have hlex₁ : lexAt b (i + 1) = .modifier := hlex
    have hne : b (i + 1) ≠ 0 := by
      rw [htwo]
      intro h0
      rw [h0] at hmod₁
      exact absurd hmod₁ (by decide)
    have hskip : R (i + 1) v.args g' := by
      refine hw.skip i _ g' hlive (Lex.converts_eq_false ?_) ?_ hg'
      · rw [hlex]
        decide
      · rw [Lex.emits, hlex]
        rfl
    refine TurnEnds.mono (Nat.le_succ i) (turnEnds_of_skip hw
      (hlive₂ (not_ends_of_ne_zero _ hne)) rfl ?_ (by simp) hskip)
    rw [hlex₁, Lex.next, Lex.inModifier, htwo, if_pos hmod₁]
    rfl
  unfold awaitModifier
  rw [hfmt, hw.next]
  refine L.ite (fun h => ?_) fun hzt => L.ite (fun hl => ?_) fun hl =>
    L.ite (fun hL => ?_) fun hL => L.ite (fun hh => ?_) fun hh => ?_
  · exact L.pure (hmod (by grind [isModifier]) _ g hg)
  · have hahead : Lex.looksAhead (b i) = true := by rw [hl]; decide
    refine L.seq (hw.ahead i _ g hlive hahead hg) ?_
    rintro ch g' ⟨rfl, hg', hlive₂⟩
    refine L.ite (fun hll => ?_) fun _ => ?_
    · exact L.pure (htwice hahead (hll.trans hl.symm) hlive₂ _ g' hg')
    · exact L.pure (hmod (by rw [hl]; decide) _ g' hg')
  · exact L.pure (hmod (by rw [hL]; decide) _ g hg)
  · have hahead : Lex.looksAhead (b i) = true := by rw [hh]; decide
    refine L.seq (hw.ahead i _ g hlive hahead hg) ?_
    rintro ch g' ⟨rfl, hg', hlive₂⟩
    refine L.ite (fun hhh => ?_) fun _ => ?_
    · exact L.pure (htwice hahead (hhh.trans hh.symm) hlive₂ _ g' hg')
    · exact L.pure (hmod (by rw [hh]; decide) _ g' hg')
  · have hnot : isModifier (b i) = false := by grind [isModifier]
    refine awaitConversion_turnEnds hw hlive rfl hq ?_ hg
    rw [hnext, Lex.inModifier, hnot]
    rfl

theorem awaitWidth_turnEnds (hq : lexAt b i ≠ .text)
    (hnext : (lexAt b i).next (b i) = Lex.inWidth (b i)) (hg : R i v.args g) :
    L.holds (awaitWidth v (b i)) (TurnEnds fmtAt b Live R i) g := by
  unfold awaitWidth
  refine L.ite (fun hdigit => ?_) fun hdigit => ?_
  · rw [hfmt]
    refine L.pure (turnEnds_of_skip hw hlive rfl ?_ (by simp) hg)
    rw [hnext, Lex.inWidth, if_pos (by simpa [isDigit] using hdigit)]
    rfl
  · rw [hfmt]
    refine awaitModifier_turnEnds hw hlive rfl hq ?_ hg
    rw [hnext, Lex.inWidth, if_neg (by simpa [isDigit] using hdigit)]

theorem awaitFlags_turnEnds (hq : lexAt b i ≠ .text)
    (hnext : (lexAt b i).next (b i) = Lex.inFlags (b i)) (hg : R i v.args g) :
    L.holds (awaitFlags v (b i)) (TurnEnds fmtAt b Live R i) g := by
  unfold Lex.inFlags at hnext
  unfold awaitFlags
  refine L.ite (fun hpercent => ?_) fun hpercent => L.ite (fun hminus => ?_) fun hminus =>
    L.ite (fun hzero => ?_) fun hzero => ?_
  · rw [if_pos hpercent] at hnext
    have hconv : (lexAt b i).converts (b i) = false := by
      rw [hpercent, Lex.converts]
      exact decide_eq_false fun h => absurd h.2 (by decide)
    refine L.seq (put_inv hw hlive hfmt hconv hnext hg) ?_
    rintro v' g' ⟨hfmt', -, hg'⟩
    refine L.pure (turnEnds (v := { v' with state := .percent }) hw hlive hfmt' ?_ hg')
    rw [hnext]
    rfl
  · rw [if_neg hpercent, if_pos hminus] at hnext
    rw [hfmt]
    refine L.pure (turnEnds_of_skip hw hlive rfl ?_ (by simp) hg)
    rw [hnext]
    rfl
  · -- the `0` flag: the next byte is read in the same turn, NUL or not
    rw [if_neg hpercent, if_neg hminus, if_pos hzero] at hnext
    have hlex : lexAt b (i + 1) = .zeroed := hnext
    have hskip : R (i + 1) v.args g := by
      refine hw.skip i _ g hlive (Lex.converts_eq_false ?_) ?_ hg
      · rw [hnext]
        decide
      · rw [Lex.emits, hnext]
        rfl
    rw [hfmt, hw.next]
    refine L.seq (hw.load (i + 1) _ g hlive hskip) ?_
    rintro ch g' ⟨rfl, hg', -, hlive₁⟩
    refine L.mono (fun _ _ => TurnEnds.mono (Nat.le_succ i))
      (awaitWidth_turnEnds hw (hlive₁ ?_) rfl ?_ ?_ hg')
    · exact not_ends_of_inside (by rw [hlex]; rfl) _
    · rw [hlex]
      decide
    · rw [hlex]
      rfl
  · rw [if_neg hpercent, if_neg hminus, if_neg hzero] at hnext
    rw [hfmt]
    exact awaitWidth_turnEnds hw hlive rfl hq hnext hg

theorem awaitPercent_turnEnds (hq : lexAt b i = .text) (hstate : v.state = .percent)
    (hg : R i v.args g) : L.holds (awaitPercent v (b i)) (TurnEnds fmtAt b Live R i) g := by
  have hconv : (lexAt b i).converts (b i) = false := by
    rw [hq, Lex.converts]
    exact decide_eq_false fun h => h.1 rfl
  unfold awaitPercent
  refine L.ite (fun hne => ?_) fun hpercent => ?_
  · have hnext : (lexAt b i).next (b i) = .text := by rw [hq, Lex.next, if_neg hne]
    refine L.mono ?_ (put_inv hw hlive hfmt hconv hnext hg)
    rintro v' g' ⟨hfmt', hstate', hg'⟩
    refine turnEnds hw hlive hfmt' ?_ hg'
    rw [hnext, hstate', hstate]
    rfl
  · -- the byte after `%` is read in the same turn, NUL or not
    have hlex : lexAt b (i + 1) = .opened := by
      rw [lexAt, hq, Lex.next, if_pos (Decidable.not_not.mp hpercent)]
    have hskip : R (i + 1) v.args g := by
      refine hw.skip i _ g hlive hconv ?_ hg
      rw [Lex.emits, show (lexAt b i).next (b i) = .opened from hlex]
      rfl
    rw [hfmt, hw.next]
    refine L.seq (hw.load (i + 1) _ g hlive hskip) ?_
    rintro ch g' ⟨rfl, hg', -, hlive₁⟩
    refine L.mono (fun _ _ => TurnEnds.mono (Nat.le_succ i))
      (awaitFlags_turnEnds hw (hlive₁ ?_) rfl ?_ ?_ hg')
    · exact not_ends_of_inside (by rw [hlex]; rfl) _
    · rw [hlex]
      decide
    · rw [hlex]
      rfl

end Cases

/-! ## the loop -/

/-- The formatter has just read the byte the text ends at. -/
def TextEnds (b : Nat → UInt8) (Live : Nat → Prop) (Seen : Nat → G → Prop)
    (R : Nat → List UInt64 → G → Prop) (g : G) : Prop :=
  ∃ i args, Live i ∧ (lexAt b i).ends (b i) ∧ Seen i g ∧ R i args g

section Loop

variable {fmtAt : Nat → CharPtr} {b : Nat → UInt8} {Live : Nat → Prop} {Seen : Nat → G → Prop}
  {R : Nat → List UInt64 → G → Prop} (hw : TextWorld L fmtAt b Live Seen R)

include hw

/-- **One turn**: from a byte of the text to a later one, or out of the loop
where the text ends. -/
theorem vprintfStep_inStep {i : Nat} {v : Vars} {g : G} (h : InStep fmtAt b Live R i v g) :
    L.holds (vprintfStep v)
      (Sum.elim (fun v' g' => ∃ j, i < j ∧ InStep fmtAt b Live R j v' g')
        fun _ g' => TextEnds b Live Seen R g') g := by
  have hinside : (lexAt b i).inside = false := by
    have htop := h.top
    cases hlex : lexAt b i <;> rw [hlex] at htop <;> first | rfl | cases htop
  unfold vprintfStep
  rw [h.fmt]
  refine L.seq (hw.load i _ g h.live h.inv) ?_
  rintro ch g₁ ⟨rfl, hg₁, hseen, hlive⟩
  refine L.ite (fun h0 => L.pure ?_) fun h0 => ?_
  · exact ⟨i, v.args, h.live, by simp [Lex.ends, h0, hinside], hseen, hg₁⟩
  · have hlive₁ := hlive (not_ends_of_ne_zero _ h0)
    have hturn : L.holds (switch v (b i)) (TurnEnds fmtAt b Live R i) g₁ := by
      unfold switch
      have htop := h.top
      cases hlex : lexAt b i with
      | text =>
          rw [hlex] at htop
          have hstate : .percent = v.state := Option.some.inj htop
          rw [← hstate]
          exact awaitPercent_turnEnds hw hlive₁ h.fmt hlex hstate.symm hg₁
      | flags =>
          rw [hlex] at htop
          have hstate : .flags = v.state := Option.some.inj htop
          rw [← hstate]
          exact awaitFlags_turnEnds hw hlive₁ h.fmt (by rw [hlex]; decide) (by rw [hlex]; rfl) hg₁
      | width =>
          rw [hlex] at htop
          have hstate : .width = v.state := Option.some.inj htop
          rw [← hstate]
          exact awaitWidth_turnEnds hw hlive₁ h.fmt (by rw [hlex]; decide) (by rw [hlex]; rfl) hg₁
      | modifier =>
          rw [hlex] at htop
          have hstate : .modifier = v.state := Option.some.inj htop
          rw [← hstate]
          exact awaitModifier_turnEnds hw hlive₁ h.fmt (by rw [hlex]; decide) (by rw [hlex]; rfl)
            hg₁
      | opened | zeroed =>
          rw [hlex] at htop
          cases htop
    refine L.seq hturn ?_
    intro v' g' hends
    exact L.pure hends

/-- **The formatter on a text of bounded length**, in any calculus. -/
theorem doVprintfBody_of_bounded {N : Nat} (hbound : ∀ i, Live i → i ≤ N) (hlive : Live 0)
    {args : List UInt64} {g : G} (hg : R 0 args g) :
    L.holds (doVprintfBody (fmtAt 0) args) (fun _ g' => TextEnds b Live Seen R g') g := by
  unfold doVprintfBody
  refine L.loop (fun n v g => ∃ i, n = N - i ∧ InStep fmtAt b Live R i v g) ?_
    ⟨0, rfl, inStep_zero hlive hg⟩
  rintro n v g ⟨i, rfl, hstep⟩
  refine L.mono ?_ (vprintfStep_inStep hw hstep)
  intro r g' hr
  cases r with
  | inl v' =>
      obtain ⟨j, hij, hj⟩ := hr
      have hN := hbound j hj.live
      exact ⟨N - j, by omega, j, rfl, hj⟩
  | inr _ => exact hr

end Loop

/-- **The formatter on any text**: every run. -/
theorem wp_doVprintfBody {env : G → (e : PrintEvent) → e.Answer → G → Prop}
    {ok : G → PrintEvent → Prop} {fmtAt : Nat → CharPtr} {b : Nat → UInt8} {Live : Nat → Prop}
    {Seen : Nat → G → Prop} {R : Nat → List UInt64 → G → Prop}
    (hw : TextWorld (wpCalculus env ok) fmtAt b Live Seen R) (hlive : Live 0) {args : List UInt64}
    {g : G} (hg : R 0 args g) :
    wp env ok (doVprintfBody (fmtAt 0) args) (fun _ g' => TextEnds b Live Seen R g') g := by
  refine wp_loop (fun v g => ∃ i, InStep fmtAt b Live R i v g) ⟨0, inStep_zero hlive hg⟩ ?_
  rintro v g ⟨i, hstep⟩
  refine wp_mono ?_ (vprintfStep_inStep hw hstep)
  intro r g' hr
  cases r with
  | inl v' =>
      obtain ⟨j, -, hj⟩ := hr
      exact ⟨j, hj⟩
  | inr _ => exact hr

end UefiKernel.Console
