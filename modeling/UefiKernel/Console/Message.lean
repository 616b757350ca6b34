import UefiKernel.Console.Formatter
import UefiKernel.Console.Syscall

/-!
# UefiKernel.Console.Message

System call 0, which prints a user's message.

The message is handed to the formatter as its format, so it comes out as it is
exactly if there is no `%` in it (`printsMessage_iff`).
-/

namespace UefiKernel.Console

open Interact Prog

/-- System call 0 prints exactly `s` and the final NUL, fetches no argument and
returns 0. -/
def PrintsMessage (m : Machine) (a1 a2 a3 a4 a5 : Int64) (s : List UInt8) : Prop :=
  ∃ g, Run m.env ({}, doSyscallEntry 0 a1 a2 a3 a4 a5) (g, .ret 0) ∧ g.out = s ++ [0] ∧
    g.fetched = 0

/-! ## a message without `%` -/

theorem printsMessage_of_not_mem {m : Machine} {a1 a2 a3 a4 a5 : Int64} {s : List UInt8}
    (hs : m.HasText (.mem a1.toUInt64) s) (hpercent : '%'.toUInt8 ∉ s) :
    PrintsMessage m a1 a2 a3 a4 a5 s := by
  obtain ⟨items, htext, hrender, hmatches⟩ :=
    exists_plain_items m (fun _ => []) hs.not_mem hpercent
  rw [← htext] at hs
  have hbody := Machine.run_doVprintfBody hs hmatches {}
  rw [hrender] at hbody
  refine ⟨(({} : Trace).print s).print [0], ?_, rfl, rfl⟩
  rw [doSyscallEntry_zero]
  exact (hbody.seq ((Machine.run_fn 0 _).seq .refl)).seq .refl

/-! ## a message with `%` -/

/-- As long as nothing is fetched, what is printed is what the lexer emits. -/
theorem wp_emitted (m : Machine) (a : UInt64) :
    wp m.env (fun _ _ => True) (doVprintfBody (.mem a) [])
      (fun _ g => g.fetched = 0 → ∃ i, Alive (m.textAt a) i ∧
        (lexAt (m.textAt a) i).ends (m.textAt a i) ∧ g.out = emitted (m.textAt a) i) {} := by
  have hw : TextWorld (wpCalculus m.env fun _ _ => True) (fmtAt a) (m.textAt a)
      (Alive (m.textAt a)) (fun _ _ => True)
      (fun i args g => args = [] ∧ (g.fetched = 0 → g.out = emitted (m.textAt a) i)) :=
    { next := fmtAt_next a
      load := by
        rintro i args g hi hR
        refine ⟨trivial, ?_⟩
        rintro ch g' ⟨hmem, rfl⟩
        exact ⟨Machine.textAt_eq hmem, hR, trivial, hi.succ⟩
      ahead := by
        rintro i args g hi _ hR
        refine ⟨trivial, ?_⟩
        rintro ch g' ⟨hmem, rfl⟩
        exact ⟨Machine.textAt_eq hmem, hR, hi.succ⟩
      skip := by
        rintro i args g _ _ hemits ⟨hargs, hout⟩
        refine ⟨hargs, fun h0 => ?_⟩
        rw [emitted, hemits, List.append_nil, hout h0]
      put := by
        rintro i args g _ _ hemits ⟨hargs, hout⟩
        refine ⟨trivial, ?_⟩
        rintro r g' rfl
        refine ⟨hargs, fun h0 => ?_⟩
        rw [emitted, hemits, Trace.print_out, hout h0]
      convert := by
        rintro i v g conversion _ _ _ ⟨hargs, _⟩
        -- the fetch is counted, and nothing takes it back
        have hva : (wpCalculus m.env fun _ _ => True).holds (vaArg v.args) (fun r g' => r.2 = [] ∧
            g'.fetched ≠ 0 ∧ ∀ conv, convert v.flags (r.1 :: r.2) conversion = pure conv →
              Emits (wpCalculus m.env fun _ _ => True) conv.str (fun g => g.fetched ≠ 0)
                fun g => g.fetched ≠ 0) g := by
          rw [hargs]
          refine ⟨trivial, ?_⟩
          rintro arg g' ⟨-, rfl⟩
          refine ⟨rfl, Nat.succ_ne_zero _, fun conv _ => emits_wp ?_ conv.str⟩
          intro g e _ hg
          refine ⟨trivial, fun r g' he => ?_⟩
          cases e with
          | load via p => exact he.2 ▸ hg
          | vaArg => exact he.2 ▸ Nat.succ_ne_zero _
          | fn ch => exact (congrArg Trace.fetched he).symm ▸ hg
        refine wp_mono ?_ (convertAndEmit_keeps hva)
        rintro v' g' ⟨hfmt, hargs', hfetched⟩
        exact ⟨hfmt, hargs', fun h0 => absurd h0 hfetched⟩ }
  rw [← fmtAt_zero a]
  refine wp_mono ?_ (wp_doVprintfBody hw (alive_zero _) ⟨rfl, fun _ => rfl⟩)
  rintro count g ⟨i, args, halive, hends, -, -, hout⟩ h0
  exact ⟨i, halive, hends, hout h0⟩

/-- A text with a `%` in front of its end does not come out as it is. -/
theorem emitted_ne {b : Nat → UInt8} {s : List UInt8} (hb : ∀ i ≤ s.length, b i = byteAt s i)
    (hs : 0 ∉ s) (hpercent : '%'.toUInt8 ∈ s) {i : Nat} (halive : Alive b i)
    (hends : (lexAt b i).ends (b i)) : emitted b i ≠ s := by
  have hlex : ∀ j ≤ s.length, lexAt b j = lexAt (byteAt s) j := by
    intro j hj
    exact lexAt_congr fun k hk => hb k (by omega)
  have hi : s.length ≤ i := by
    rcases Nat.lt_or_ge i s.length with hlt | hge
    · rw [hlex i (Nat.le_of_lt hlt), hb i (Nat.le_of_lt hlt)] at hends
      exact length_le_of_ends hs hends
    · exact hge
  intro h
  rcases Nat.eq_or_lt_of_le hi with rfl | hlt
  · -- the first `%` prints nothing
    obtain ⟨w, r, rfl, hw⟩ := List.eq_append_cons_of_mem hpercent
    have hj : w.length < (w ++ '%'.toUInt8 :: r).length := by simp
    have hpos : b w.length = '%'.toUInt8 := by
      rw [hb _ (Nat.le_of_lt hj), byteAt_lt hj]
      simp
    have htext : lexAt b w.length = .text := by
      rw [hlex _ (Nat.le_of_lt hj), lexAt_byteAt (Nat.le_of_lt hj), List.take_left']
      · exact scan_of_not_mem hw
      · rfl
    have hlt := emitted_length_lt hj (b := b) (by rw [htext, hpos]; rfl)
    rw [h] at hlt
    exact Nat.lt_irrefl _ hlt
  · -- the NUL that is passed is printed
    have h0 : b s.length = 0 := (hb _ (Nat.le_refl _)).trans (byteAt_length s)
    have hinside : (lexAt b s.length).inside = true := by
      have hne := halive _ hlt
      rw [ends_iff, not_and, Bool.not_eq_false] at hne
      exact hne h0
    refine hs (h ▸ mem_emitted hlt ?_)
    rw [h0]
    revert hinside
    cases lexAt b s.length <;> decide

theorem not_printsMessage_of_mem {m : Machine} {a1 a2 a3 a4 a5 : Int64} {s : List UInt8}
    (hs : m.HasText (.mem a1.toUInt64) s) (hpercent : '%'.toUInt8 ∈ s) :
    ¬ PrintsMessage m a1 a2 a3 a4 a5 s := by
  rintro ⟨g, hr, hout, hfetched⟩
  have hwp : wp m.env (fun _ _ => True) (doSyscallEntry 0 a1 a2 a3 a4 a5)
      (fun _ g => g.fetched = 0 → ∃ i, Alive (m.textAt a1.toUInt64) i ∧
        (lexAt (m.textAt a1.toUInt64) i).ends (m.textAt a1.toUInt64 i) ∧
        g.out = emitted (m.textAt a1.toUInt64) i ++ [0]) {} := by
    rw [doSyscallEntry_zero]
    refine wp_bind.mpr (wp_bind.mpr (wp_mono ?_ (wp_emitted m a1.toUInt64)))
    intro count g₁ h
    refine ⟨trivial, ?_⟩
    rintro r g₂ rfl h0
    obtain ⟨i, halive, hends, hprinted⟩ := h h0
    exact ⟨i, halive, hends, congrArg (· ++ [0]) hprinted⟩
  obtain ⟨i, halive, hends, hprinted⟩ := post_of_run hwp hr hfetched
  rw [hout] at hprinted
  refine emitted_ne (s := s) ?_ hs.not_mem hpercent halive hends
    (List.append_cancel_right hprinted).symm
  intro j hj
  exact (Machine.textAt_eq (hs.byte hj)).symm

/-! ## exactly when -/

/-- **System call 0 prints the message** exactly if there is no `%` in it. -/
theorem printsMessage_iff {m : Machine} {a1 a2 a3 a4 a5 : Int64} {s : List UInt8}
    (hs : m.HasText (.mem a1.toUInt64) s) :
    PrintsMessage m a1 a2 a3 a4 a5 s ↔ '%'.toUInt8 ∉ s := by
  constructor
  · exact fun h hpercent => not_printsMessage_of_mem hs hpercent h
  · exact printsMessage_of_not_mem hs

/-- A memory that holds nothing but the two bytes of `"%%"` and a NUL. -/
def percentMachine : Machine where
  mem p := if p = 0x1000 ∨ p = 0x1001 then some '%'.toUInt8 else if p = 0x1002 then some 0 else none
  junk _ := 0

theorem percentMachine_hasText : percentMachine.HasText (.mem 0x1000) (bytes "%%") :=
  .cons rfl (by decide) (.cons rfl (by decide) (.nil rfl))

theorem printsMessage_sample :
    percentMachine.HasText (.mem (0x1000 : Int64).toUInt64) (bytes "%%") ∧
      (PrintsMessage percentMachine 0x1000 0 0 0 0 (bytes "%%") ↔ '%'.toUInt8 ∉ bytes "%%") :=
  ⟨percentMachine_hasText, printsMessage_iff percentMachine_hasText⟩

/-- The message `"%%"` comes out as `"%"`. -/
theorem percent_message_garbled :
    ¬ ∀ (m : Machine) (a1 a2 a3 a4 a5 : Int64) (s : List UInt8),
      m.HasText (.mem a1.toUInt64) s → PrintsMessage m a1 a2 a3 a4 a5 s :=
  fun h => not_printsMessage_of_mem percentMachine_hasText (by decide)
    (h percentMachine 0x1000 0 0 0 0 (bytes "%%") percentMachine_hasText)

end UefiKernel.Console
