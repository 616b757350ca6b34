import UefiKernel.Console.Fields

/-!
# UefiKernel.Console.Formatter

What `_do_vprintf` prints is what its format means.

The five cases of the formatter are taken from the last to the first, each as
a run from a byte of the directive to the end of the loop: `Ends` is the loop
from the variables it has at the head of a turn, `Then` the rest of a turn and
the loop after it, and `Goes` the loop between two items of the format.
-/

namespace UefiKernel.Console

open Interact Prog

/-! ## the text of a directive -/

/-- What follows the width is a letter. -/
theorem letter_of_head {modifier : Option Modifier} {verb : Verb} {rest text : List UInt8}
    {ch : UInt8} (h : modifierText modifier ++ verb.char :: rest = ch :: text) :
    ¬ ('0'.toUInt8 ≤ ch ∧ ch ≤ '9'.toUInt8) ∧
      ch ≠ '%'.toUInt8 ∧ ch ≠ '-'.toUInt8 ∧ ch ≠ '0'.toUInt8 := by
  rcases modifier with _ | ⟨_ | _ | _ | _ | _ | _ | _⟩
  · obtain ⟨rfl, _⟩ := List.cons.inj h
    cases verb <;> decide
  all_goals
    obtain ⟨rfl, _⟩ := List.cons.inj h
    decide

/-- Without the flag `0`, the flags are over. -/
theorem Directive.not_flag (d : Directive) (hzero : d.zero = false) {rest text : List UInt8}
    {ch : UInt8} (h : d.tail ++ rest = ch :: text) :
    ch ≠ '%'.toUInt8 ∧ ch ≠ '-'.toUInt8 ∧ ch ≠ '0'.toUInt8 := by
  rw [Directive.tail, hzero, if_neg Bool.false_ne_true, List.nil_append, List.append_assoc,
    List.append_assoc] at h
  cases hdigits : d.digits with
  | nil =>
      rw [hdigits] at h
      exact (letter_of_head h).2
  | cons digit digits =>
      have hfirst := d.zero_first hzero
      have hdigit := d.digits_ok digit (hdigits ▸ List.mem_cons_self)
      rw [hdigits] at h hfirst
      obtain ⟨rfl, _⟩ := List.cons.inj h
      refine ⟨?_, ?_, fun h0 => hfirst (congrArg some h0)⟩ <;>
      · rintro rfl
        exact absurd hdigit (by decide)

/-- A digit more. -/
theorem givenWd_digit {ch : UInt8} (h : '0'.toUInt8 ≤ ch) (n : Nat) :
    10 * UInt64.ofNat n + (ch - '0'.toUInt8).toUInt64 =
      UInt64.ofNat (10 * n + (ch.toNat - '0'.toNat)) := by
  have h0 : '0'.toUInt8.toNat = '0'.toNat := rfl
  apply UInt64.toNat_inj.mp
  rw [UInt64.toNat_add, UInt64.toNat_mul, UInt8.toNat_toUInt64, UInt8.toNat_sub_of_le _ _ h, h0,
    UInt64.toNat_ofNat', UInt64.toNat_ofNat']
  simp

namespace Machine

variable {m : Machine}

/-! ## the loop -/

theorem HasText.uncons {p : CharPtr} {ch : UInt8} {text : List UInt8}
    (h : m.HasText p (ch :: text)) : m.At p ch ∧ ch ≠ 0 ∧ m.HasText p.next text := by
  cases h with
  | cons h hch ht => exact ⟨h, hch, ht⟩

/-- The loop comes from `v` to `last`. -/
def Ends (m : Machine) (v : Vars) (g : Trace) (last : Trace × PrintM UInt64) : Prop :=
  Run m.env (g, loop vprintfStep v) last

/-- The rest `p` of a turn, and the loop after it, come to `last`. -/
def Then (m : Machine) (p : PrintM Vars) (g : Trace) (last : Trace × PrintM UInt64) : Prop :=
  Run m.env (g, p.bind fun v => loop vprintfStep { v with fmt := v.fmt.next }) last

/-- Outside a directive, with a text and arguments left, the loop comes to `last`. -/
def Goes (m : Machine) (rest : List UInt8) (args : List UInt64) (count : UInt64) (g : Trace)
    (last : Trace × PrintM UInt64) : Prop :=
  ∀ v, v.state = .percent → v.args = args → v.count = count → m.HasText v.fmt rest → m.Ends v g last

variable {last : Trace × PrintM UInt64}

/-- A turn. -/
theorem ends_of_then {v : Vars} {ch : UInt8} {text : List UInt8} {g : Trace}
    (htext : m.HasText v.fmt (ch :: text)) (h : m.Then (switch v ch) g last) : m.Ends v g last := by
  obtain ⟨hat, hne, _⟩ := htext.uncons
  refine .head .iter (((run_deref hat .fmt g).bind _).bind _ |>.trans ?_)
  rw [ret_bind, if_neg hne]
  have hassoc := bind_assoc (switch v ch)
    (fun v => (ret (.inl { v with fmt := v.fmt.next }) : PrintM (Vars ⊕ UInt64)))
    (again vprintfStep ret)
  exact hassoc ▸ h

theorem then_pure {v : Vars} {g : Trace} (h : m.Ends { v with fmt := v.fmt.next } g last) :
    m.Then (pure v) g last := h

theorem then_seq {α : Type} {p : PrintM α} {f : α → PrintM Vars} {a : α} {g g₁ : Trace}
    (hp : Run m.env (g, p) (g₁, ret a)) (h : m.Then (f a) g₁ last) : m.Then (p >>= f) g last := by
  have hassoc := bind_assoc p f fun v => loop vprintfStep { v with fmt := v.fmt.next }
  unfold Then
  rw [bind_eq, hassoc]
  exact hp.seq h

/-! ## the five cases -/

section Directive

variable {strings : UInt64 → List UInt8} {d : Directive} {arg : UInt64} {args : List UInt64}
  {rest : List UInt8} {count : UInt64} {g : Trace} (harg : d.verb.Accepts m strings arg)
  (hgo : m.Goes rest args (count + UInt64.ofNat (d.render strings arg).length)
    (g.print (d.render strings arg)) last)

include harg hgo

theorem then_awaitConversion {v : Vars} (hargs : v.args = arg :: args) (hcount : v.count = count)
    (hflags : v.flags = d.flags) (hwd : v.givenWd = UInt64.ofNat d.width)
    (hrest : m.HasText v.fmt.next rest) :
    m.Then (awaitConversion v d.verb.char) g last := by
  obtain ⟨conv, hconv, hleft, hpresents⟩ := exists_presents d harg args
  obtain ⟨hjust, hpad⟩ : d.flags.leftJust = decide (d.minuses ≠ 0) ∧ d.flags.padLeft0 = d.zero := by
    obtain ⟨num8, num16, num64, hflags⟩ := d.flags_eq
    rw [hflags]
    exact ⟨rfl, rfl⟩
  have hwidth : v.givenWd.toNat = d.width := by
    rw [hwd, UInt64.toNat_ofNat']
    exact Nat.mod_eq_of_lt d.width_lt
  have hemit := run_emit (v := { v with flags := conv.flags, args := conv.args }) hpresents.text
    hpresents.sign (hpresents.zero.trans (by rw [hpad])) hpresents.length_lt g
  have hrender : (d.verb.field strings (bitsOf d.modifier) arg).pad conv.flags.leftJust d.zero
      v.givenWd.toNat = d.render strings arg := by
    rw [hpresents.left, hjust, hwidth]
    rfl
  rw [hrender] at hemit
  unfold awaitConversion
  rw [Verb.ofChar_char]
  simp only [hargs, hflags]
  rw [hconv]
  refine then_seq (a := conv) .refl (then_seq hemit (then_pure (hgo _ rfl hleft ?_ hrest)))
  rw [← hcount]
  rfl

theorem then_verb {v : Vars} (hargs : v.args = arg :: args) (hcount : v.count = count)
    (hflags : v.flags = d.flags) (hwd : v.givenWd = UInt64.ofNat d.width)
    (htext : m.HasText v.fmt (d.verb.char :: rest)) :
    m.Then (awaitModifier v d.verb.char) g last := by
  have hverb : awaitModifier v d.verb.char =
      awaitConversion { v with state := .conversion } d.verb.char := by
    cases d.verb <;> rfl
  rw [hverb]
  exact then_awaitConversion harg hgo hargs hcount hflags hwd htext.uncons.2.2

theorem ends_verb {v : Vars} (hstate : v.state = .modifier) (hargs : v.args = arg :: args)
    (hcount : v.count = count) (hflags : v.flags = d.flags)
    (hwd : v.givenWd = UInt64.ofNat d.width) (htext : m.HasText v.fmt (d.verb.char :: rest)) :
    m.Ends v g last := by
  refine ends_of_then htext ?_
  unfold switch
  rw [hstate]
  exact then_verb harg hgo hargs hcount hflags hwd htext

theorem then_awaitModifier {v : Vars} {ch : UInt8} {text : List UInt8}
    (hargs : v.args = arg :: args) (hcount : v.count = count)
    (hflags : v.flags.modified d.modifier = d.flags) (hwd : v.givenWd = UInt64.ofNat d.width)
    (htext : m.HasText v.fmt (ch :: text))
    (heq : modifierText d.modifier ++ d.verb.char :: rest = ch :: text) :
    m.Then (awaitModifier v ch) g last := by
  rw [← heq] at htext
  -- the byte after an `h` or `l` tells one letter from two
  have hahead : d.verb.char ≠ 'h'.toUInt8 ∧ d.verb.char ≠ 'l'.toUInt8 := by
    cases d.verb <;> decide
  cases hmod : d.modifier with
  | none =>
      rw [hmod] at heq htext hflags
      obtain ⟨rfl, rfl⟩ := List.cons.inj heq
      exact then_verb harg hgo hargs hcount hflags hwd htext
  | some modifier =>
      rw [hmod] at heq htext hflags
      cases modifier with
      | hh | ll =>
          obtain ⟨rfl, rfl⟩ := List.cons.inj heq
          obtain ⟨_, _, htext⟩ := htext.uncons
          obtain ⟨hat, _, htext⟩ := htext.uncons
          refine then_seq (run_deref hat .fmt g) (then_pure ?_)
          exact ends_verb harg hgo rfl hargs hcount hflags hwd htext
      | h =>
          obtain ⟨rfl, rfl⟩ := List.cons.inj heq
          obtain ⟨_, _, htext⟩ := htext.uncons
          refine then_seq (run_deref htext.uncons.1 .fmt g) ?_
          rw [if_neg hahead.1]
          exact ends_verb harg hgo rfl hargs hcount hflags hwd htext
      | l =>
          obtain ⟨rfl, rfl⟩ := List.cons.inj heq
          obtain ⟨_, _, htext⟩ := htext.uncons
          refine then_seq (run_deref htext.uncons.1 .fmt g) ?_
          rw [if_neg hahead.2]
          exact ends_verb harg hgo rfl hargs hcount hflags hwd htext
      | L | z | t =>
          obtain ⟨rfl, rfl⟩ := List.cons.inj heq
          exact then_pure (ends_verb harg hgo rfl hargs hcount hflags hwd htext.uncons.2.2)

/-- The width goes on after `digits` of value `n`. -/
theorem then_awaitWidth {v : Vars} {ch : UInt8} {text digits : List UInt8} {n : Nat}
    (hargs : v.args = arg :: args) (hcount : v.count = count)
    (hflags : v.flags.modified d.modifier = d.flags) (hwd : v.givenWd = UInt64.ofNat n)
    (hdigits : ∀ ch ∈ digits, isDigit ch = true) (hn : decimalFrom n digits = d.width)
    (htext : m.HasText v.fmt (ch :: text))
    (heq : digits ++ (modifierText d.modifier ++ d.verb.char :: rest) = ch :: text) :
    m.Then (awaitWidth v ch) g last := by
  induction digits generalizing v ch text n with
  | nil =>
      have hn : n = d.width := hn
      rw [hn] at hwd
      have hch : ¬ ('0'.toUInt8 ≤ ch ∧ ch ≤ '9'.toUInt8) := (letter_of_head heq).1
      unfold awaitWidth
      rw [if_neg hch]
      exact then_awaitModifier harg hgo hargs hcount hflags hwd htext heq
  | cons digit digits ih =>
      rw [List.cons_append] at heq
      obtain ⟨rfl, rfl⟩ := List.cons.inj heq
      have hch : '0'.toUInt8 ≤ digit ∧ digit ≤ '9'.toUInt8 := by
        simpa [isDigit] using hdigits digit List.mem_cons_self
      obtain ⟨ch', text', heq'⟩ := List.exists_cons_of_ne_nil
        (l := digits ++ (modifierText d.modifier ++ d.verb.char :: rest)) (by simp)
      obtain ⟨_, _, htext⟩ := htext.uncons
      rw [heq'] at htext
      unfold awaitWidth
      rw [if_pos hch]
      refine then_pure (ends_of_then htext ?_)
      refine ih hargs hcount hflags ?_ (fun ch hch => hdigits ch (List.mem_cons_of_mem _ hch)) hn
        htext heq'
      show 10 * v.givenWd + (digit - '0'.toUInt8).toUInt64 = _
      rw [hwd]
      exact givenWd_digit hch.1 n

/-- The flag `0` and what follows. -/
theorem then_tail {v : Vars} {ch : UInt8} {text : List UInt8} (hargs : v.args = arg :: args)
    (hcount : v.count = count) (hflags : v.flags = { leftJust := d.minuses ≠ 0 })
    (htext : m.HasText v.fmt (ch :: text)) (heq : d.tail ++ rest = ch :: text) :
    m.Then (awaitFlags v ch) g last := by
  cases hzero : d.zero with
  | true =>
      rw [Directive.tail, hzero, if_pos rfl, List.append_assoc, List.singleton_append,
        List.append_assoc, List.append_assoc, List.singleton_append] at heq
      obtain ⟨rfl, rfl⟩ := List.cons.inj heq
      obtain ⟨ch', text', heq'⟩ := List.exists_cons_of_ne_nil
        (l := d.digits ++ (modifierText d.modifier ++ d.verb.char :: rest)) (by simp)
      obtain ⟨_, _, htext⟩ := htext.uncons
      rw [heq'] at htext
      refine then_seq (run_deref htext.uncons.1 .fmt g) ?_
      refine then_awaitWidth harg hgo hargs hcount ?_ rfl d.digits_ok rfl htext heq'
      show ({ v.flags with padLeft0 := true } : Flags).modified d.modifier = _
      rw [hflags, Directive.flags, hzero]
  | false =>
      obtain ⟨hpercent, hminus, h0⟩ := d.not_flag hzero heq
      rw [Directive.tail, hzero, if_neg Bool.false_ne_true, List.nil_append, List.append_assoc,
        List.append_assoc] at heq
      unfold awaitFlags
      rw [if_neg hpercent, if_neg hminus, if_neg h0]
      refine then_awaitWidth harg hgo hargs hcount ?_ rfl d.digits_ok rfl htext heq
      show v.flags.modified d.modifier = _
      rw [hflags, Directive.flags, hzero]

/-- The flags go on after `left` says whether there was a `-`. -/
theorem then_awaitFlags (left : Bool) {v : Vars} {ch : UInt8} {text : List UInt8} {minuses : Nat}
    (hargs : v.args = arg :: args) (hcount : v.count = count)
    (hflags : v.flags = { leftJust := left })
    (hleft : (left || decide (minuses ≠ 0)) = decide (d.minuses ≠ 0))
    (htext : m.HasText v.fmt (ch :: text))
    (heq : List.replicate minuses '-'.toUInt8 ++ (d.tail ++ rest) = ch :: text) :
    m.Then (awaitFlags v ch) g last := by
  induction minuses generalizing v ch text left with
  | zero =>
      have hleft : left = decide (d.minuses ≠ 0) := by simpa using hleft
      exact then_tail harg hgo hargs hcount (hleft ▸ hflags) htext heq
  | succ minuses ih =>
      rw [List.replicate_succ, List.cons_append] at heq
      obtain ⟨rfl, rfl⟩ := List.cons.inj heq
      obtain ⟨ch', text', heq'⟩ := List.exists_cons_of_ne_nil
        (l := List.replicate minuses '-'.toUInt8 ++ (d.tail ++ rest)) (by simp [Directive.tail])
      obtain ⟨_, _, htext⟩ := htext.uncons
      rw [heq'] at htext
      refine then_pure (ends_of_then htext ?_)
      refine ih true hargs hcount ?_ ?_ htext heq'
      · show { v.flags with leftJust := true } = _
        rw [hflags]
      · simpa using hleft

theorem then_awaitPercent {v : Vars} (hargs : v.args = arg :: args) (hcount : v.count = count)
    (htext : m.HasText v.fmt (d.text ++ rest)) :
    m.Then (awaitPercent v '%'.toUInt8) g last := by
  obtain ⟨ch, text, heq⟩ := List.exists_cons_of_ne_nil
    (l := List.replicate d.minuses '-'.toUInt8 ++ (d.tail ++ rest)) (by simp [Directive.tail])
  rw [Directive.text, List.cons_append, List.append_assoc, heq] at htext
  obtain ⟨_, _, htext⟩ := htext.uncons
  refine then_seq (run_deref htext.uncons.1 .fmt g) ?_
  exact then_awaitFlags harg hgo false hargs hcount rfl (Bool.false_or _) htext heq

end Directive

theorem goes_directive {strings : UInt64 → List UInt8} {d : Directive} {arg : UInt64}
    {args : List UInt64} {rest : List UInt8} {count : UInt64} {g : Trace}
    (harg : d.verb.Accepts m strings arg)
    (hgo : m.Goes rest args (count + UInt64.ofNat (d.render strings arg).length)
      (g.print (d.render strings arg)) last) :
    m.Goes (d.text ++ rest) (arg :: args) count g last := by
  intro v hstate hargs hcount htext
  refine ends_of_then htext ?_
  unfold switch
  rw [hstate]
  exact then_awaitPercent harg hgo hargs hcount htext

theorem goes_byte {ch : UInt8} (hch : ch ≠ '%'.toUInt8) {args : List UInt64} {rest : List UInt8}
    {count : UInt64} {g : Trace} (hgo : m.Goes rest args (count + 1) (g.print [ch]) last) :
    m.Goes (ch :: rest) args count g last := by
  intro v hstate hargs hcount htext
  refine ends_of_then htext ?_
  unfold switch awaitPercent
  rw [hstate]
  simp only
  rw [if_pos hch]
  refine then_seq (run_fn ch g) (then_pure ?_)
  exact hgo _ hstate hargs (congrArg (· + 1) hcount) htext.uncons.2.2

theorem goes_percent {args : List UInt64} {rest : List UInt8} {count : UInt64} {g : Trace}
    (hgo : m.Goes rest args (count + 1) (g.print ['%'.toUInt8]) last) :
    m.Goes (bytes "%%" ++ rest) args count g last := by
  intro v hstate hargs hcount htext
  refine ends_of_then htext ?_
  obtain ⟨_, _, htext⟩ := htext.uncons
  unfold switch
  rw [hstate]
  refine then_seq (run_deref htext.uncons.1 .fmt g) ?_
  refine then_seq ((run_fn '%'.toUInt8 g).seq .refl) (then_pure ?_)
  exact hgo _ rfl hargs (congrArg (· + 1) hcount) htext.uncons.2.2

/-- The end of the format. -/
theorem goes_nil {args : List UInt64} {count : UInt64} {g : Trace} :
    m.Goes [] args count g (g, ret count) := by
  rintro v _ _ rfl htext
  cases htext with
  | nil h0 => exact Run.leave ((run_deref h0 .fmt g).seq .refl) .refl

/-- The loop prints what the items mean. -/
theorem goes_items {strings : UInt64 → List UInt8} {items : List Item} {args : List UInt64}
    (hargs : Matches m strings items args) (count : UInt64) (g : Trace) :
    m.Goes (items.flatMap Item.text) args count g
      (g.print (render strings items args),
        ret (count + UInt64.ofNat (render strings items args).length)) := by
  have hsplit : ∀ (text text' : List UInt8) (count : UInt64) (g : Trace),
      ((g.print text).print text', (ret (count + UInt64.ofNat text.length +
        UInt64.ofNat text'.length) : PrintM UInt64)) =
      (g.print (text ++ text'), ret (count + UInt64.ofNat (text ++ text').length)) := by
    intro text text' count g
    rw [Trace.print_print, List.length_append, UInt64.ofNat_add, UInt64.add_assoc]
  induction items generalizing args count g with
  | nil =>
      have hcount : count + UInt64.ofNat 0 = count := UInt64.add_zero count
      rw [render, Trace.print_nil, List.length_nil, hcount]
      exact goes_nil
  | cons item items ih =>
      rw [List.flatMap_cons]
      cases item with
      | byte ch h =>
          have hrest := ih hargs (count + 1) (g.print [ch])
          have hlast := hsplit [ch] (render strings items args) count g
          exact goes_byte h.2 (hlast ▸ hrest)
      | percent =>
          have hrest := ih hargs (count + 1) (g.print ['%'.toUInt8])
          have hlast := hsplit ['%'.toUInt8] (render strings items args) count g
          exact goes_percent (hlast ▸ hrest)
      | directive d =>
          cases args with
          | nil => exact hargs.elim
          | cons arg args =>
              have hrest := ih hargs.2 (count + UInt64.ofNat (d.render strings arg).length)
                (g.print (d.render strings arg))
              rw [hsplit] at hrest
              exact goes_directive hargs.1 hrest

/-- `_do_vprintf` of a format. -/
theorem run_doVprintfBody {fmt : CharPtr} {strings : UInt64 → List UInt8} {items : List Item}
    {args : List UInt64} (hfmt : m.HasText fmt (items.flatMap Item.text))
    (hargs : Matches m strings items args) (g : Trace) :
    Run m.env (g, doVprintfBody fmt args) (g.print (render strings items args),
      ret (UInt64.ofNat (render strings items args).length)) := by
  have hrun := goes_items hargs 0 g { fmt, args } rfl rfl rfl hfmt
  rwa [UInt64.zero_add] at hrun

/-- `printf` of a format, with the NUL behind it. -/
theorem run_printf {fmt : CharPtr} {strings : UInt64 → List UInt8} {items : List Item}
    {args : List UInt64} (hfmt : m.HasText fmt (items.flatMap Item.text))
    (hargs : Matches m strings items args) (g : Trace) :
    Run m.env (g, printf fmt args) (g.print (render strings items args ++ [0]),
      ret (UInt64.ofNat (render strings items args).length)) := by
  rw [← Trace.print_print]
  exact (run_doVprintfBody hfmt hargs g).seq ((run_fn 0 _).seq .refl)

end Machine

/-- **The formatter implements its format language**: every run of
`_do_vprintf` goes on to its end, where it has printed what the format means
and returns its length modulo 2^64.  The digits of no conversion go beyond the
63 bytes in front of the NUL of `buf`. -/
theorem doVprintfBody_renders {m : Machine} {fmt : CharPtr} {strings : UInt64 → List UInt8}
    {items : List Item} {args : List UInt64} (hfmt : m.HasText fmt (items.flatMap Item.text))
    (hargs : Matches m strings items args) (g : Trace) :
    (∀ c, Run m.env (g, doVprintfBody fmt args) c →
      Run m.env c (g.print (render strings items args),
        ret (UInt64.ofNat (render strings items args).length))) ∧
    ∀ flags arg args conversion conv text,
      convert flags (arg :: args) conversion = pure conv → conv.str = .lit text →
        text.length ≤ 63 :=
  ⟨fun _ hr => (Machine.run_doVprintfBody hfmt hargs g).goes_on m.deterministic hr,
    fun _ _ _ _ _ _ hconv hstr => length_convert hconv hstr⟩

/-- A machine with no memory. -/
def bareMachine : Machine := ⟨fun _ => none, fun _ => 0⟩

/-- `[%-6hhd|%05d|%ld|%p]%%`. -/
def sampleItems : List Item := [
  .byte '['.toUInt8 (by decide),
  .directive ⟨1, false, bytes "6", some .hh, .d, forall_mem_bytes (by decide), by decide,
    by decide⟩,
  .byte '|'.toUInt8 (by decide),
  .directive ⟨0, true, bytes "5", none, .d, forall_mem_bytes (by decide), by decide, by decide⟩,
  .byte '|'.toUInt8 (by decide),
  .directive ⟨0, false, [], some .l, .d, by simp, by decide, by decide⟩,
  .byte '|'.toUInt8 (by decide),
  .directive ⟨0, false, [], none, .p, by simp, by decide, by decide⟩,
  .byte ']'.toUInt8 (by decide),
  .percent]

/-- A number for each of its directives. -/
def sampleArgs : List UInt64 := [255, -42, 0x8000000000000000, 0x1f]

theorem doVprintfBody_renders_sample :
    Run bareMachine.env ({}, doVprintfBody (.lit (bytes "[%-6hhd|%05d|%ld|%p]%%")) sampleArgs)
      ({ out := bytes "[-1    |-0042|-9223372036854775808|0x1f]%" }, ret 41) := by
  have htext : sampleItems.flatMap Item.text = bytes "[%-6hhd|%05d|%ld|%p]%%" := by decide
  have hrender : render (fun _ => []) sampleItems sampleArgs =
      bytes "[-1    |-0042|-9223372036854775808|0x1f]%" := by decide
  have hfmt : bareMachine.HasText (.lit (bytes "[%-6hhd|%05d|%ld|%p]%%"))
      (sampleItems.flatMap Item.text) := by
    rw [htext]
    exact Machine.hasText_lit (forall_mem_bytes (by decide))
  have hargs : Matches bareMachine (fun _ => []) sampleItems sampleArgs :=
    ⟨trivial, trivial, trivial, trivial, trivial⟩
  have hrun := (doVprintfBody_renders hfmt hargs {}).1 _ .refl
  rwa [hrender] at hrun

/-- `%18446744073709551615dx`. -/
def wideItems : List Item := [
  .directive ⟨0, false, bytes "18446744073709551615", none, .d, forall_mem_bytes (by decide),
    by decide, by decide⟩,
  .byte 'x'.toUInt8 (by decide)]

/-- What is returned is not always the number of bytes emitted: 2^64 of them
are counted as none. -/
theorem count_wraps : ¬ ∀ (m : Machine) (fmt : CharPtr) (strings : UInt64 → List UInt8)
    (items : List Item) (args : List UInt64) (g g' : Trace) (c : UInt64),
    m.HasText fmt (items.flatMap Item.text) → Matches m strings items args →
    Run m.env (g, doVprintfBody fmt args) (g', ret c) →
      g' = g.print (render strings items args) ∧
        c.toNat = (render strings items args).length := by
  intro hall
  have htext : wideItems.flatMap Item.text = bytes "%18446744073709551615dx" := by decide
  have hfmt : bareMachine.HasText (.lit (bytes "%18446744073709551615dx"))
      (wideItems.flatMap Item.text) := by
    rw [htext]
    exact Machine.hasText_lit (forall_mem_bytes (by decide))
  have hargs : Matches bareMachine (fun _ => []) wideItems [0] := ⟨trivial, trivial⟩
  have hlen : (render (fun _ => []) wideItems [0]).length = 2 ^ 64 := by
    rw [wideItems, render, List.length_append, Directive.length_render]
    decide
  have hcount := (hall _ _ _ _ _ {} _ _ hfmt hargs (Machine.run_doVprintfBody hfmt hargs {})).2
  rw [hlen] at hcount
  exact absurd hcount (by decide)

end UefiKernel.Console
