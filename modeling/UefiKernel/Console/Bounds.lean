import Mathlib.Algebra.Group.Nat.Defs
import UefiKernel.Console.Machine

/-!
# UefiKernel.Console.Bounds

When the formatter stays inside its format string.

The string is read in whatever world: arguments, output function and every
other part of memory may behave as they like, as long as the bytes of the
string are answered.  `stopsAtNul_iff` is the exact condition: the formatter
passes the NUL of a string that ends right after the `%` of a directive or
right after its `0` flag, and of no other.
-/

namespace UefiKernel.Console

open Interact Prog

/-- `p` is the address of a byte of the string at `a`, or of its NUL. -/
def InString (a : UInt64) (s : List UInt8) (p : UInt64) : Prop :=
  ∃ i ≤ s.length, p = a + UInt64.ofNat i

/-- A world in which the NUL-terminated string `s` is at `a`. -/
def HoldsString {G : Type} (env : G → (e : PrintEvent) → e.Answer → G → Prop) (a : UInt64)
    (s : List UInt8) : Prop :=
  ∀ g i, i ≤ s.length → ∀ ch g', env g (.load .fmt (a + UInt64.ofNat i)) ch g' → ch = byteAt s i

/-- The address of the last byte read through the format pointer. -/
def lastFmt (es : List PrintEvent) : Option UInt64 :=
  (es.filterMap fun e => match e with
    | .load .fmt p => some p
    | _ => none).getLast?

theorem lastFmt_append (es : List PrintEvent) (p : UInt64) :
    lastFmt (es ++ [.load .fmt p]) = some p := by
  simp [lastFmt]

/-- The formatter, given the string `s` at `a`, reads nothing but the string
through its format pointer and stops at the NUL; and it does stop, if the
strings it is to print have an end. -/
structure StopsAtNul (a : UInt64) (s : List UInt8) (args : List UInt64) : Prop where
  reads : ∀ {G : Type} (env : G → (e : PrintEvent) → e.Answer → G → Prop), HoldsString env a s →
    ∀ g g' es p k, Run (logged env) ((g, []), doVprintfBody (.mem a) args)
      ((g', es), .call (.load .fmt p) k) → InString a s p
  stops : ∀ {G : Type} (env : G → (e : PrintEvent) → e.Answer → G → Prop), HoldsString env a s →
    ∀ g g' es count, Run (logged env) ((g, []), doVprintfBody (.mem a) args)
      ((g', es), .ret count) → lastFmt es = some (a + UInt64.ofNat s.length)
  returns : ∀ m : Machine, m.HasText (.mem a) s → m.StringArgs args →
    ∃ g count, Run m.env ({}, doVprintfBody (.mem a) args) (g, .ret count)

/-! ## a string that does not end open -/

section Closed

variable {a : UInt64} {s : List UInt8} (hopen : ¬ EndsOpen s)

include hopen

/-- Every run reads the string and nothing else. -/
theorem wp_in_string {G : Type} {env : G → (e : PrintEvent) → e.Answer → G → Prop}
    (henv : HoldsString env a s) (args : List UInt64) (hs : 0 ∉ s) (g : G) :
    wp (logged env) (fun _ e => ∀ p, e = .load .fmt p → InString a s p)
      (doVprintfBody (.mem a) args) (fun _ g' => lastFmt g'.2 = some (a + UInt64.ofNat s.length))
      (g, []) := by
  have hload : ∀ i, i ≤ s.length → ∀ (g : G × List PrintEvent),
      (∀ p, PrintEvent.load .fmt (a + UInt64.ofNat i) = .load .fmt p → InString a s p) ∧
      ∀ ch g', logged env g (.load .fmt (a + UInt64.ofNat i)) ch g' →
        ch = byteAt s i ∧ lastFmt g'.2 = some (a + UInt64.ofNat i) := by
    intro i hi g
    constructor
    · intro p hp
      cases hp
      exact ⟨i, hi, rfl⟩
    · rintro ch g' ⟨he, hlog⟩
      refine ⟨henv _ i hi ch _ he, ?_⟩
      rw [hlog, lastFmt_append]
  have hw : TextWorld (wpCalculus (logged env) fun _ e => ∀ p, e = .load .fmt p → InString a s p)
      (fmtAt a) (byteAt s) (· ≤ s.length) (fun i g => lastFmt g.2 = some (a + UInt64.ofNat i))
      (fun _ _ _ => True) :=
    { next := fmtAt_next a
      load := by
        intro i args g hi _
        obtain ⟨hallowed, hanswer⟩ := hload i hi g
        refine ⟨hallowed, fun ch g' he => ?_⟩
        obtain ⟨hch, hlast⟩ := hanswer ch g' he
        exact ⟨hch, trivial, hlast, succ_le_of_not_ends hopen hi⟩
      ahead := by
        intro i args g hi _ _
        obtain ⟨hallowed, hanswer⟩ := hload (i + 1) hi g
        refine ⟨hallowed, fun ch g' he => ?_⟩
        exact ⟨(hanswer ch g' he).1, trivial, succ_le_of_not_ends hopen hi⟩
      skip := fun _ _ _ _ _ _ _ => trivial
      put := fun _ _ _ _ _ _ _ => ⟨fun p hp => (nomatch hp), fun _ _ _ => trivial⟩
      convert := by
        intro i v g conversion _ _ _ _
        refine wp_mono ?_ (wp_convertAndEmit (R := fun _ => True) ?_ v conversion trivial)
        · exact fun v' g' h => ⟨h.1, trivial⟩
        · intro g e he _
          refine ⟨?_, fun _ _ _ => trivial⟩
          rintro p rfl
          exact he.elim }
  rw [← fmtAt_zero a]
  refine wp_mono ?_ (wp_doVprintfBody hw (Nat.zero_le _) trivial)
  rintro count g' ⟨i, _, hi, hends, hlast, _⟩
  obtain rfl : i = s.length := Nat.le_antisymm hi (length_le_of_ends hs hends)
  exact hlast

/-- Some run returns, if the strings to be printed have an end. -/
theorem exists_return {m : Machine} (htext : m.HasText (.mem a) s) {args : List UInt64}
    (hargs : m.StringArgs args) :
    ∃ g count, Run m.env ({}, doVprintfBody (.mem a) args) (g, .ret count) := by
  have hw : TextWorld (reachCalculus m.env fun _ _ => False) (fmtAt a) (byteAt s) (· ≤ s.length)
      (fun _ _ => True) (fun _ args' _ => m.StringArgs args') :=
    { next := fmtAt_next a
      load := fun i _ _ hi hR => Machine.reaches_deref (htext.byte hi) .fmt
        ⟨rfl, hR, trivial, succ_le_of_not_ends hopen hi⟩
      ahead := fun i _ _ hi _ hR => Machine.reaches_deref (htext.byte hi) .fmt
        ⟨rfl, hR, succ_le_of_not_ends hopen hi⟩
      skip := fun _ _ _ _ _ _ hR => hR
      put := fun _ _ _ _ _ _ hR => Machine.reaches_fn _ hR
      convert := by
        intro i v g conversion _ _ _ hR
        refine (Machine.reaches_convertAndEmit hR conversion).mono ?_
        rintro v' g' ⟨hfmt, htail⟩
        refine ⟨hfmt, fun p hp => hR p (hp.imp_left fun hmem => ?_)⟩
        rw [htail] at hmem
        exact List.mem_of_mem_tail hmem }
  rw [← fmtAt_zero a]
  rcases doVprintfBody_of_bounded hw (fun _ h => h) (Nat.zero_le _) hargs with
    ⟨_, _, _, _, h⟩ | ⟨count, g, hr, _⟩
  · exact h.elim
  · exact ⟨g, count, hr⟩

end Closed

/-! ## a string that ends open -/

/-- A machine with nothing but the string in its memory: NULs elsewhere. -/
def stringMachine (a : UInt64) (s : List UInt8) : Machine where
  mem p := some (byteAt s (p - a).toNat)
  junk _ := 0

section Open

variable {a : UInt64} {s : List UInt8} (hlen : s.length + 1 < 2 ^ 64)

include hlen

theorem toNat_sub_of_le {i : Nat} (hi : i ≤ s.length + 1) :
    (a + UInt64.ofNat i - a).toNat = i := by
  rw [UInt64.add_comm, UInt64.add_sub_cancel]
  exact UInt64.toNat_ofNat_of_lt' (by simp [UInt64.size]; omega)

theorem stringMachine_mem {i : Nat} (hi : i ≤ s.length + 1) :
    (stringMachine a s).mem (a + UInt64.ofNat i) = some (byteAt s i) := by
  show some (byteAt s (a + UInt64.ofNat i - a).toNat) = some (byteAt s i)
  rw [toNat_sub_of_le hlen hi]

/-- The byte behind the NUL is not in the string. -/
theorem not_inString_succ : ¬ InString a s (a + UInt64.ofNat (s.length + 1)) := by
  rintro ⟨i, hi, h⟩
  have hnat := congrArg (fun p => (p - a).toNat) h
  simp only [toNat_sub_of_le hlen (Nat.le_refl _), toNat_sub_of_le hlen (Nat.le_succ_of_le hi)]
    at hnat
  omega

/-- Every pointer leads to a string. -/
theorem stringMachine_hasText (p : UInt64) : ∃ text, (stringMachine a s).HasText (.mem p) text := by
  generalize hn : s.length - (p - a).toNat = n
  induction n generalizing p with
  | zero =>
      refine ⟨[], .nil ?_⟩
      have h0 : byteAt s (p - a).toNat = 0 := by
        rw [byteAt, List.getD_eq_getElem?_getD, List.getElem?_eq_none (by omega)]
        rfl
      exact congrArg some h0
  | succ n ih =>
      by_cases hch : byteAt s (p - a).toNat = 0
      · exact ⟨[], .nil (congrArg some hch)⟩
      · have hnext : (p + 1 - a).toNat = (p - a).toNat + 1 := by
          have h1 : p + 1 - a = (p - a) + 1 := by grind
          rw [h1, UInt64.toNat_add]
          simp only [UInt64.reduceToNat]
          omega
        obtain ⟨text, htext⟩ := ih (p + 1) (by omega)
        exact ⟨_ :: text, .cons rfl hch htext⟩

/-- Some run leaves a string that ends open. -/
theorem exists_read_beyond (hs : 0 ∉ s) (hopen : EndsOpen s) (args : List UInt64) :
    ∃ g p k, Run (stringMachine a s).env ({}, doVprintfBody (.mem a) args)
      (g, .call (.load .fmt p) k) ∧ ¬ InString a s p := by
  have hargs : ∀ args, (stringMachine a s).StringArgs args :=
    fun _ p _ => .inr (stringMachine_hasText hlen p)
  -- every read is answered up to the NUL, and the next one is what we look for
  have hload : ∀ i, i ≤ s.length + 1 → ∀ {Q : UInt8 → Trace → Prop} {g},
      (i ≤ s.length → Q (byteAt s i) g) →
      Reaches (stringMachine a s).env (fun _ e => ∃ p, e = .load .fmt p ∧ ¬ InString a s p)
        ((fmtAt a i).deref .fmt) Q g := by
    intro i hi Q g hQ
    rcases Nat.lt_or_ge s.length i with hlt | hle
    · obtain rfl : i = s.length + 1 := by omega
      exact reaches_target ⟨_, rfl, not_inString_succ hlen⟩
    · have hat : (stringMachine a s).At (fmtAt a i) (byteAt s i) := stringMachine_mem hlen hi
      exact Machine.reaches_deref hat .fmt (hQ hle)
  have hw : TextWorld (reachCalculus (stringMachine a s).env
      fun _ e => ∃ p, e = .load .fmt p ∧ ¬ InString a s p) (fmtAt a) (byteAt s)
      (· ≤ s.length + 1) (fun i _ => i ≤ s.length) (fun _ _ _ => True) :=
    { next := fmtAt_next a
      load := fun i _ _ hi _ => hload i hi fun hle =>
        ⟨rfl, trivial, hle, fun _ => Nat.succ_le_succ hle⟩
      ahead := fun i _ _ hi _ _ => hload (i + 1) hi fun hle =>
        ⟨rfl, trivial, fun _ => Nat.succ_le_succ hle⟩
      skip := fun _ _ _ _ _ _ _ => trivial
      put := fun _ _ _ _ _ _ _ => Machine.reaches_fn _ trivial
      convert := fun _ _ _ conversion _ _ _ _ =>
        (Machine.reaches_convertAndEmit (hargs _) conversion).mono fun _ _ h => ⟨h.1, trivial⟩ }
  rw [← fmtAt_zero a]
  rcases doVprintfBody_of_bounded hw (fun _ h => h) (Nat.zero_le _) trivial with
    ⟨g, e, k, hr, p, rfl, hp⟩ | ⟨_, _, _, i, _, _, hends, hle, _⟩
  · exact ⟨g, p, k, hr, hp⟩
  · obtain rfl : i = s.length := Nat.le_antisymm hle (length_le_of_ends hs hends)
    rw [lexAt_length] at hends
    exact absurd hends (not_ends_of_inside hopen _)

end Open

/-! ## exactly when -/

theorem not_stopsAtNul {a : UInt64} {s : List UInt8} (hs : 0 ∉ s) (hlen : s.length + 1 < 2 ^ 64)
    (hopen : EndsOpen s) (args : List UInt64) : ¬ StopsAtNul a s args := by
  intro h
  obtain ⟨g, p, k, hr, hp⟩ := exists_read_beyond hlen hs hopen args (a := a)
  obtain ⟨es, hlog⟩ := hr.with_log []
  have hholds : HoldsString (stringMachine a s).env a s := by
    rintro g i hi ch g' ⟨hmem, -⟩
    rw [stringMachine_mem hlen (Nat.le_succ_of_le hi)] at hmem
    exact (Option.some.inj hmem).symm
  exact hp (h.reads _ hholds _ _ _ _ _ hlog)

/-- **The formatter stays inside its format string** exactly if the string does
not end right after the `%` of a directive or right after its `0` flag. -/
theorem stopsAtNul_iff {a : UInt64} {s : List UInt8} (hs : 0 ∉ s) (hlen : s.length + 1 < 2 ^ 64)
    (args : List UInt64) : StopsAtNul a s args ↔ ¬ EndsOpen s := by
  constructor
  · exact fun h hopen => not_stopsAtNul hs hlen hopen args h
  · intro hopen
    exact
      { reads := fun env henv g _ _ p _ hr =>
          ok_of_run (wp_in_string hopen henv args hs g) hr p rfl
        stops := fun env henv g g' es count hr => by
          have hwp := wp_in_string hopen henv args hs g
          exact post_of_run
            (Q := fun _ g' => lastFmt g'.2 = some (a + UInt64.ofNat s.length)) hwp hr
        returns := fun m htext hargs => exists_return hopen htext hargs }

/-- A string that ends in a complete directive. -/
theorem stopsAtNul_sample :
    0 ∉ bytes "%5d%%" ∧ (bytes "%5d%%").length + 1 < 2 ^ 64 ∧
      (StopsAtNul 0x1000 (bytes "%5d%%") [7] ↔ ¬ EndsOpen (bytes "%5d%%")) :=
  ⟨by decide, by decide, stopsAtNul_iff (by decide) (by decide) [7]⟩

/-- `printf("100%")` reads on behind its format. -/
theorem percent_passes_nul :
    ¬ ∀ (a : UInt64) (s : List UInt8) (args : List UInt64), 0 ∉ s → s.length + 1 < 2 ^ 64 →
      StopsAtNul a s args :=
  fun h => not_stopsAtNul (by decide) (by decide) (by decide) []
    (h 0x1000 (bytes "100%") [] (by decide) (by decide))

end UefiKernel.Console
