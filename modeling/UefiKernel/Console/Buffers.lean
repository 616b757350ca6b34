import Mathlib.Data.List.Induction
import Mathlib.Logic.Function.Basic
import UefiKernel.Console.Counting
import UefiKernel.Console.Formatter
import UefiKernel.Lib.Handle

/-!
# UefiKernel.Console.Buffers

`vsprintf` and `vsnprintf`, which put the formatter's output into a buffer.

The formatter is the same for both; what differs is the function that its
output is passed to.  `Fills` says what such a function stores, as a function
of all that was passed so far, and `Fills.run` carries a run of the formatter
over to the memory that the buffer is part of.  The formatter must not read the
buffer: its run is one on a machine without it.
-/

namespace UefiKernel.Console

open Interact Prog

/-! ## the functions -/

/-- An access to memory or to the arguments. -/
inductive BufferEvent
  | load (p : UInt64)
  | vaArg
  | store (p : UInt64) (ch : UInt8)
  deriving DecidableEq, Repr

abbrev BufferEvent.Answer : BufferEvent → Type
  | load _ => UInt8
  | vaArg => UInt64
  | store _ _ => Unit

abbrev BufferM := Prog BufferEvent BufferEvent.Answer

/-- `*p = ch`. -/
def storeChar (p : UInt64) (ch : UInt8) : BufferM Unit := req (BufferEvent.store p ch)

structure VsnprintfOutputS where
  cur : UInt64
  num : UInt64
  deriving DecidableEq, Repr

structure VsprintfOutputS where
  cur : UInt64
  deriving DecidableEq, Repr

def vsnprintfOutput (ch : UInt8) (state : VsnprintfOutputS) : BufferM VsnprintfOutputS := do
  if state.num ≠ 0 then
    -- `(--state->Num) ? ch : '\0'`
    let num := state.num - 1
    storeChar state.cur (if num ≠ 0 then ch else 0)
    return { cur := state.cur + 1, num }
  return state

def vsprintfOutput (ch : UInt8) (state : VsprintfOutputS) : BufferM VsprintfOutputS := do
  storeChar state.cur ch
  return { cur := state.cur + 1 }

/-- The events of the formatter, with `output` for `fn`. -/
def withOutput {S : Type} (output : UInt8 → S → BufferM S) (state : S) :
    (e : PrintEvent) → BufferM (e.Answer × S)
  | .load _ p => do
      let ch ← req (BufferEvent.load p)
      return (ch, state)
  | .vaArg => do
      let arg ← req BufferEvent.vaArg
      return (arg, state)
  | .fn ch => do
      let state ← output ch state
      return ((), state)

def vsnprintf (buf n : UInt64) (fmt : CharPtr) (args : List UInt64) : BufferM UInt64 := do
  let (count, _) ← handle (withOutput vsnprintfOutput) (doVprintf fmt args)
    { cur := buf, num := n }
  return count

def vsprintf (buf : UInt64) (fmt : CharPtr) (args : List UInt64) : BufferM UInt64 := do
  let (count, _) ← handle (withOutput vsprintfOutput) (doVprintf fmt args) { cur := buf }
  return count

/-! ## memory -/

/-- What each address holds, where one is mapped, how many arguments were
fetched that nobody passed, and the stores so far. -/
structure Ram where
  mem : UInt64 → Option UInt8
  fetched : Nat
  stores : List (UInt64 × UInt8)

def Ram.store (w : Ram) (p : UInt64) (ch : UInt8) : Ram :=
  { w with mem := Function.update w.mem p (some ch), stores := w.stores ++ [(p, ch)] }

@[simp] theorem Ram.store_mem (w : Ram) (p : UInt64) (ch : UInt8) :
    (w.store p ch).mem = Function.update w.mem p (some ch) := rfl

/-- Loads see the stores. -/
def ramEnv (junk : Nat → UInt64) : Ram → (e : BufferEvent) → e.Answer → Ram → Prop
  | w, .load p, ch, w' => w.mem p = some ch ∧ w' = w
  | w, .vaArg, arg, w' => arg = junk w.fetched ∧ w' = { w with fetched := w.fetched + 1 }
  | w, .store p ch, _, w' => w' = w.store p ch

/-- An event has one answer here too. -/
theorem ramEnv_deterministic (junk : Nat → UInt64) : Deterministic (ramEnv junk) := by
  intro w e r₁ w₁ r₂ w₂ h₁ h₂
  cases e with
  | load p =>
      obtain ⟨hr₁, rfl⟩ := h₁
      obtain ⟨hr₂, rfl⟩ := h₂
      exact ⟨Option.some.inj (hr₁.symm.trans hr₂), rfl⟩
  | vaArg =>
      obtain ⟨rfl, rfl⟩ := h₁
      obtain ⟨rfl, rfl⟩ := h₂
      exact ⟨rfl, rfl⟩
  | store p ch => exact ⟨rfl, h₁.trans h₂.symm⟩

/-- One of the `len` bytes at `buf`. -/
def InBuffer (buf : UInt64) (len : Nat) (p : UInt64) : Prop :=
  ∃ k < len, p = buf + UInt64.ofNat k

instance (buf : UInt64) (len : Nat) : DecidablePred (InBuffer buf len) :=
  fun p => inferInstanceAs (Decidable (∃ k < len, p = buf + UInt64.ofNat k))

/-- The machine with nothing mapped at some addresses. -/
def Machine.without (m : Machine) (dest : UInt64 → Prop) [DecidablePred dest] : Machine :=
  { m with mem := fun p => if dest p then none else m.mem p }

theorem Machine.without_mem (m : Machine) (dest : UInt64 → Prop) [DecidablePred dest]
    (p : UInt64) : (m.without dest).mem p = if dest p then none else m.mem p := rfl

/-- The stores that put a text into a buffer. -/
def placed (buf : UInt64) (text : List UInt8) : List (UInt64 × UInt8) :=
  text.mapIdx fun k ch => (buf + UInt64.ofNat k, ch)

/-- The machine's memory after a text was put into a buffer. -/
def Machine.filled (m : Machine) (buf : UInt64) (text : List UInt8) (fetched : Nat) : Ram where
  mem := (placed buf text).foldl (fun mem s => Function.update mem s.1 (some s.2)) m.mem
  fetched := fetched
  stores := placed buf text

section Filled

variable {m : Machine} {buf : UInt64} {fetched : Nat}

/-- One more byte goes behind the others. -/
theorem placed_concat (text : List UInt8) (ch : UInt8) :
    placed buf (text ++ [ch]) = placed buf text ++ [(buf + UInt64.ofNat text.length, ch)] :=
  List.mapIdx_concat

/-- Another byte. -/
theorem filled_concat (text : List UInt8) (ch : UInt8) :
    m.filled buf (text ++ [ch]) fetched =
      (m.filled buf text fetched).store (buf + UInt64.ofNat text.length) ch := by
  simp only [Machine.filled, Ram.store, placed_concat, List.foldl_append, List.foldl_cons,
    List.foldl_nil]

/-- The rest of memory is left alone. -/
theorem filled_mem_of_not {text : List UInt8} {p : UInt64} (h : ¬ InBuffer buf text.length p) :
    (m.filled buf text fetched).mem p = m.mem p := by
  induction text using List.reverseRecOn with
  | nil => rfl
  | append_singleton text ch ih =>
      rw [List.length_append, List.length_singleton] at h
      have hne : p ≠ buf + UInt64.ofNat text.length :=
        fun he => h ⟨text.length, Nat.lt_succ_self _, he⟩
      have hin : ¬ InBuffer buf text.length p :=
        fun ⟨k, hk, he⟩ => h ⟨k, Nat.lt_succ_of_lt hk, he⟩
      rw [filled_concat, Ram.store_mem, Function.update_of_ne hne, ih hin]

/-- The bytes of the text are in the buffer. -/
theorem filled_mem {text : List UInt8} (hlen : text.length ≤ 2 ^ 64) {k : Nat}
    (hk : k < text.length) :
    (m.filled buf text fetched).mem (buf + UInt64.ofNat k) = some text[k] := by
  induction text using List.reverseRecOn with
  | nil => exact absurd hk (Nat.not_lt_zero k)
  | append_singleton text ch ih =>
      rw [List.length_append, List.length_singleton] at hlen hk
      rw [filled_concat, Ram.store_mem]
      rcases Nat.lt_succ_iff_lt_or_eq.mp hk with hlt | rfl
      · have hne : buf + UInt64.ofNat k ≠ buf + UInt64.ofNat text.length := by
          intro he
          have hnat := congrArg UInt64.toNat (UInt64.add_right_inj buf |>.mp he)
          rw [UInt64.toNat_ofNat', UInt64.toNat_ofNat'] at hnat
          omega
        rw [Function.update_of_ne hne, ih (by omega) hlt, List.getElem_append_left hlt]
      · rw [Function.update_self, List.getElem_concat_length rfl]

end Filled

/-! ## what an output function stores -/

/-- Having been passed `out`, the output function is in `state out` and has put
`stored out` into the buffer; a further byte makes it store one more or none. -/
structure Fills {S : Type} (output : UInt8 → S → BufferM S) (buf : UInt64)
    (state : List UInt8 → S) (stored : List UInt8 → List UInt8) : Prop where
  nil : stored [] = []
  put : ∀ (out : List UInt8) (ch : UInt8),
    output ch (state out) = ret (state (out ++ [ch])) ∧ stored (out ++ [ch]) = stored out ∨
    ∃ b, output ch (state out) = (storeChar (buf + UInt64.ofNat (stored out).length) b).bind
        (fun _ => ret (state (out ++ [ch]))) ∧
      stored (out ++ [ch]) = stored out ++ [b]

section Fills

variable {S : Type} {output : UInt8 → S → BufferM S} {buf : UInt64} {state : List UInt8 → S}
  {stored : List UInt8 → List UInt8}

/-- More output leaves more in the buffer. -/
theorem Fills.length_le (hf : Fills output buf state stored) {out out' : List UInt8}
    (h : out <+: out') : (stored out).length ≤ (stored out').length := by
  obtain ⟨more, rfl⟩ := h
  induction more using List.reverseRecOn with
  | nil => exact Nat.le_of_eq (by rw [List.append_nil])
  | append_singleton more ch ih =>
      rw [← List.append_assoc]
      refine Nat.le_trans ih ?_
      rcases hf.put (out ++ more) ch with ⟨-, h⟩ | ⟨b, -, h⟩
      · exact Nat.le_of_eq (congrArg List.length h.symm)
      · rw [h, List.length_append]
        exact Nat.le_add_right _ _

/-- One event of the formatter, when what can be read is outside the buffer. -/
theorem Fills.step (hf : Fills output buf state stored) {m : Machine} {dest : UInt64 → Prop}
    [DecidablePred dest] {g g' : Trace} {e : PrintEvent} {r : e.Answer}
    (he : (m.without dest).env g e r g')
    (hdest : ∀ q, InBuffer buf (stored g'.out).length q → dest q) :
    Run (ramEnv m.junk) (m.filled buf (stored g.out) g.fetched, withOutput output (state g.out) e)
      (m.filled buf (stored g'.out) g'.fetched, ret (r, state g'.out)) := by
  cases e with
  | load via q =>
      obtain ⟨hmem, rfl⟩ := he
      rw [Machine.without_mem] at hmem
      have hq : ¬ dest q := fun hq => by
        rw [if_pos hq] at hmem
        cases hmem
      have hload : ramEnv m.junk (m.filled buf (stored g'.out) g'.fetched) (.load q) r
          (m.filled buf (stored g'.out) g'.fetched) := by
        refine ⟨?_, rfl⟩
        rw [filled_mem_of_not fun hin => hq (hdest q hin)]
        rwa [if_neg hq] at hmem
      exact (Run.req hload).seq .refl
  | vaArg =>
      obtain ⟨rfl, rfl⟩ := he
      have harg : ramEnv m.junk (m.filled buf (stored g.out) g.fetched) .vaArg
          (m.junk g.fetched) (m.filled buf (stored g.out) (g.fetched + 1)) := ⟨rfl, rfl⟩
      exact (Run.req harg).seq .refl
  | fn ch =>
      obtain rfl : g' = g.print [ch] := he
      rw [Trace.print_out]
      show Run _ (_, (output ch (state g.out)).bind _) _
      rcases hf.put g.out ch with ⟨hput, hstored⟩ | ⟨b, hput, hstored⟩
      · rw [hput, hstored]
        exact .refl
      · have hstore : ramEnv m.junk (m.filled buf (stored g.out) g.fetched)
            (.store (buf + UInt64.ofNat (stored g.out).length) b) ()
            (m.filled buf (stored g.out ++ [b]) g.fetched) := filled_concat _ _
        have hrun : Run (ramEnv m.junk) (_, storeChar _ b) (_, ret ()) := .req hstore
        rw [hput, hstored]
        exact (hrun.seq .refl).seq .refl

/-- **A run of the formatter**, with its output in a buffer. -/
theorem Fills.run (hf : Fills output buf state stored) {m : Machine} {dest : UInt64 → Prop}
    [DecidablePred dest] {α : Type} {p : PrintM α} {g : Trace} {a : α}
    (h : Run (m.without dest).env ({}, p) (g, ret a))
    (hdest : ∀ q, InBuffer buf (stored g.out).length q → dest q) :
    Run (ramEnv m.junk) (m.filled buf [] 0, handle (withOutput output) p (state []))
      (m.filled buf (stored g.out) g.fetched, ret (a, state g.out)) := by
  have hback : ∀ g₁ e r g₂, (m.without dest).env g₁ e r g₂ → g₂.out <+: g.out → g₁.out <+: g.out :=
    fun g₁ e r g₂ he hpre =>
      ( Machine.out_prefix (m.without dest) (Run.req he)).trans hpre
  have hstep : ∀ g₁ e r g₂ s w, (m.without dest).env g₁ e r g₂ → g₂.out <+: g.out →
      s = state g₁.out ∧ w = m.filled buf (stored g₁.out) g₁.fetched →
      ∃ s' w', Run (ramEnv m.junk) (w, withOutput output s e) (w', ret (r, s')) ∧
        s' = state g₂.out ∧ w' = m.filled buf (stored g₂.out) g₂.fetched := by
    rintro g₁ e r g₂ _ _ he hpre ⟨rfl, rfl⟩
    -- the buffer never holds more than at the end
    refine ⟨_, _, hf.step he fun q hq => hdest q ?_, rfl, rfl⟩
    obtain ⟨k, hk, hqk⟩ := hq
    exact ⟨k, Nat.lt_of_lt_of_le hk (hf.length_le hpre), hqk⟩
  have hstart : state [] = state ({} : Trace).out ∧
      m.filled buf [] 0 = m.filled buf (stored ({} : Trace).out) ({} : Trace).fetched := by
    refine ⟨rfl, ?_⟩
    rw [hf.nil]
  obtain ⟨_, _, hr, rfl, rfl⟩ := Run.handle (J := fun g₁ => g₁.out <+: g.out) hback hstep h
    (List.prefix_refl _) hstart
  exact hr

end Fills

/-! ## the two output functions -/

/-- What `vsnprintf` puts into a buffer of `n` bytes for a text: as much of it as
there is room for, with a NUL in the last byte. -/
def bounded (n : Nat) (text : List UInt8) : List UInt8 :=
  (text.take n).mapIdx fun k ch => if k + 1 < n then ch else 0

/-- `vsnprintf` stores no more than `n` bytes. -/
theorem length_bounded (n : Nat) (text : List UInt8) :
    (bounded n text).length = min n text.length := by
  rw [bounded, List.length_mapIdx, List.length_take]

/-- The last of `n` is a NUL, the others are the text's. -/
theorem getElem_bounded {n : Nat} {text : List UInt8} {k : Nat} (hk : k < (bounded n text).length) :
    (bounded n text)[k] = if k + 1 < n then text.getD k 0 else 0 := by
  have hlt : k < text.length := by
    rw [length_bounded] at hk
    omega
  simp only [bounded, List.getElem_mapIdx, List.getElem_take, List.getD_eq_getElem?_getD,
    List.getElem?_eq_getElem hlt, Option.getD_some]

/-- Once there are `n`, nothing is added. -/
theorem bounded_concat_of_le {n : Nat} {out : List UInt8} (h : n ≤ out.length) (ch : UInt8) :
    bounded n (out ++ [ch]) = bounded n out := by
  rw [bounded, bounded, List.take_append_of_le_length h]

/-- Before, each byte is stored as it comes, but for the last. -/
theorem bounded_concat_of_lt {n : Nat} {out : List UInt8} (h : out.length < n) (ch : UInt8) :
    bounded n (out ++ [ch]) = bounded n out ++ [if out.length + 1 < n then ch else 0] := by
  have hlen : (out ++ [ch]).length ≤ n := by
    rw [List.length_append, List.length_singleton]
    exact h
  rw [bounded, bounded, List.take_of_length_le hlen, List.take_of_length_le (Nat.le_of_lt h),
    List.mapIdx_concat]

theorem add_ofNat_succ (a : UInt64) (n : Nat) :
    a + UInt64.ofNat (n + 1) = a + UInt64.ofNat n + 1 := by
  rw [UInt64.ofNat_add, ← UInt64.add_assoc]
  rfl

theorem add_ofNat_zero (a : UInt64) : a + UInt64.ofNat 0 = a := UInt64.add_zero a

/-- The callback of `vsprintf` stores every byte. -/
theorem fills_vsprintfOutput (buf : UInt64) :
    Fills vsprintfOutput buf (fun out => ⟨buf + UInt64.ofNat out.length⟩) fun out => out where
  nil := rfl
  put out ch := by
    refine .inr ⟨ch, ?_, rfl⟩
    rw [List.length_append, List.length_singleton, add_ofNat_succ]
    rfl

/-- `vsnprintf_output` after `len` bytes. -/
def vsnprintfState (buf n : UInt64) (len : Nat) : VsnprintfOutputS where
  cur := buf + UInt64.ofNat (min n.toNat len)
  num := n - UInt64.ofNat (min n.toNat len)

theorem vsnprintfState_zero (buf n : UInt64) : vsnprintfState buf n 0 = ⟨buf, n⟩ := by
  rw [vsnprintfState, Nat.min_zero, add_ofNat_zero]
  exact congrArg _ (UInt64.sub_zero n)

/-- What `vsnprintf` has left counts down, and stops at zero. -/
theorem toNat_num (buf n : UInt64) (len : Nat) :
    (vsnprintfState buf n len).num.toNat = n.toNat - len := by
  have hlt := n.toNat_lt
  have hmin : (UInt64.ofNat (min n.toNat len)).toNat = min n.toNat len := by
    rw [UInt64.toNat_ofNat']
    omega
  show (n - UInt64.ofNat (min n.toNat len)).toNat = _
  rw [UInt64.toNat_sub_of_le _ _ (UInt64.le_iff_toNat_le.mpr (by omega)), hmin]
  omega

/-- Another byte, where there is room for one. -/
theorem vsnprintfState_succ {buf n : UInt64} {len : Nat} (h : len < n.toNat) :
    vsnprintfState buf n (len + 1) =
      ⟨(vsnprintfState buf n len).cur + 1, (vsnprintfState buf n len).num - 1⟩ := by
  have hcur : (vsnprintfState buf n (len + 1)).cur = (vsnprintfState buf n len).cur + 1 := by
    rw [vsnprintfState, vsnprintfState, Nat.min_eq_right h, Nat.min_eq_right (Nat.le_of_lt h),
      add_ofNat_succ]
  have hnum : (vsnprintfState buf n (len + 1)).num = (vsnprintfState buf n len).num - 1 := by
    have hone : (1 : UInt64).toNat = 1 := rfl
    have hlen := toNat_num buf n len
    refine UInt64.toNat_inj.mp ?_
    rw [UInt64.toNat_sub_of_le _ _ (UInt64.le_iff_toNat_le.mpr (by omega)), toNat_num, hlen, hone]
    omega
  rw [← hcur, ← hnum]

/-- Then its state stays as it is. -/
theorem vsnprintfState_of_le {buf n : UInt64} {len : Nat} (h : n.toNat ≤ len) :
    vsnprintfState buf n (len + 1) = vsnprintfState buf n len := by
  rw [vsnprintfState, vsnprintfState, Nat.min_eq_left h, Nat.min_eq_left (Nat.le_succ_of_le h)]

/-- The callback of `vsnprintf` stores what `bounded` says. -/
theorem fills_vsnprintfOutput (buf n : UInt64) :
    Fills vsnprintfOutput buf (fun out => vsnprintfState buf n out.length) (bounded n.toNat) where
  nil := by
    rw [bounded, List.take_nil, List.mapIdx_nil]
  put out ch := by
    have hnum := toNat_num buf n out.length
    have hnext := toNat_num buf n (out.length + 1)
    rw [List.length_append, List.length_singleton]
    rcases Nat.lt_or_ge out.length n.toNat with hlt | hge
    · -- there is room for the byte, or for the NUL in its place
      have hne : (vsnprintfState buf n out.length).num ≠ 0 := by
        rw [← UInt64.toNat_inj.ne, hnum, UInt64.toNat_zero]
        omega
      have hsucc : vsnprintfState buf n (out.length + 1) = _ := vsnprintfState_succ hlt
      rw [hsucc] at hnext
      have hlast : (vsnprintfState buf n out.length).num - 1 ≠ 0 ↔ out.length + 1 < n.toNat := by
        rw [← UInt64.toNat_inj.ne, hnext, UInt64.toNat_zero]
        omega
      refine .inr ⟨if out.length + 1 < n.toNat then ch else 0, ?_, bounded_concat_of_lt hlt ch⟩
      unfold vsnprintfOutput
      rw [if_pos hne, hsucc, length_bounded]
      simp only [hlast]
      rfl
    · -- the buffer is full
      have hzero : (vsnprintfState buf n out.length).num = 0 := by
        rw [← UInt64.toNat_inj, hnum, UInt64.toNat_zero]
        omega
      refine .inl ⟨?_, bounded_concat_of_le hge ch⟩
      rw [vsnprintfState_of_le hge]
      exact if_neg (not_not.mpr hzero)

/-! ## the two functions agree -/

/-- The memory in front of a call. -/
def Machine.ram (m : Machine) : Ram := ⟨m.mem, 0, []⟩

/-- `vsprintf` puts `out` and a NUL into the buffer at `big`.  `vsnprintf` puts
as many bytes into the one at `buf`, but no more than `n`, each of them the same
but for a NUL in byte `n - 1`; it stores nothing else.  Both return how long
`out` is, modulo 2^64. -/
structure BuffersAgree (m : Machine) (fmt : CharPtr) (args : List UInt64) (big buf n : UInt64)
    (out : List UInt8) : Prop where
  unbounded : Gives (ramEnv m.junk) (vsprintf big fmt args)
    (fun r w => r = UInt64.ofNat out.length ∧ w.stores = placed big (out ++ [0])) m.ram
  bounded : Gives (ramEnv m.junk) (vsnprintf buf n fmt args)
    (fun r w => r = UInt64.ofNat out.length ∧
      w.stores = (List.range (min n.toNat (out.length + 1))).map (fun k =>
        (buf + UInt64.ofNat k, if k + 1 < n.toNat then (out ++ [0]).getD k 0 else 0)) ∧
      (∀ k < min n.toNat (out.length + 1), w.mem (buf + UInt64.ofNat k) =
        some (if k + 1 < n.toNat then (out ++ [0]).getD k 0 else 0)) ∧
      ∀ p, ¬ InBuffer buf (min n.toNat (out.length + 1)) p → w.mem p = m.mem p) m.ram

/-- Byte by byte. -/
theorem placed_bounded (buf : UInt64) (n : Nat) (text : List UInt8) :
    placed buf (bounded n text) = (List.range (min n text.length)).map fun k =>
      (buf + UInt64.ofNat k, if k + 1 < n then text.getD k 0 else 0) := by
  refine List.ext_getElem ?_ fun k hk _ => ?_
  · rw [placed, List.length_mapIdx, length_bounded, List.length_map, List.length_range]
  · have hb : k < (bounded n text).length := by rwa [placed, List.length_mapIdx] at hk
    simp only [placed, List.getElem_mapIdx, List.getElem_map, List.getElem_range,
      getElem_bounded hb]

/-- The machine without the two buffers, as far as a text of `len` bytes goes. -/
abbrev Machine.withoutBuffers (m : Machine) (big buf n : UInt64) (len : Nat) : Machine :=
  m.without fun p => InBuffer big (len + 1) p ∨ InBuffer buf (min n.toNat (len + 1)) p

/-- **Bounded and unbounded formatting agree**, for any format and arguments on
which the formatter comes to an end without reading either buffer. -/
theorem vsnprintf_agrees {m : Machine} {fmt : CharPtr} {args : List UInt64} {big buf n : UInt64}
    {g : Trace} {c : UInt64}
    (h : Run (m.withoutBuffers big buf n g.out.length).env ({}, doVprintfBody fmt args)
      (g, ret c)) :
    BuffersAgree m fmt args big buf n g.out := by
  have hcount := post_of_run (doVprintfBody_counts fmt args) h
  have hlen : (g.print [0]).out.length = g.out.length + 1 := by
    rw [Trace.print_out, List.length_append, List.length_singleton]
  have hwhole : Run (m.withoutBuffers big buf n g.out.length).env ({}, doVprintf fmt args)
      (g.print [0], ret c) := h.seq ((Machine.run_fn 0 g).seq .refl)
  have hbounded : (bounded n.toNat (g.print [0]).out).length = min n.toNat (g.out.length + 1) := by
    rw [length_bounded, hlen]
  refine ⟨?_, ?_⟩
  · have hr := (fills_vsprintfOutput big).run hwhole fun q hq => .inl (hlen ▸ hq)
    rw [List.length_nil, add_ofNat_zero] at hr
    have hcall : Run (ramEnv m.junk) (m.ram, vsprintf big fmt args)
        (m.filled big (g.print [0]).out g.fetched, ret c) := hr.seq .refl
    exact gives_of_deterministic (ramEnv_deterministic _) hcall ⟨hcount, rfl⟩
  · have hr := (fills_vsnprintfOutput buf n).run hwhole fun q hq => .inr (hbounded ▸ hq)
    rw [List.length_nil, vsnprintfState_zero] at hr
    have hcall : Run (ramEnv m.junk) (m.ram, vsnprintf buf n fmt args)
        (m.filled buf (bounded n.toNat (g.print [0]).out) g.fetched, ret c) := hr.seq .refl
    refine gives_of_deterministic (ramEnv_deterministic _) hcall ⟨hcount, ?_, ?_, ?_⟩
    · exact (placed_bounded buf n.toNat _).trans (by rw [hlen]; rfl)
    · intro k hk
      rw [← hbounded] at hk
      have hroom : (bounded n.toNat (g.print [0]).out).length ≤ 2 ^ 64 := by
        have hlt := n.toNat_lt
        omega
      exact (filled_mem hroom hk).trans (congrArg some (getElem_bounded hk))
    · intro p hp
      exact filled_mem_of_not (hbounded ▸ hp)

theorem vsnprintf_agrees_hello :
    BuffersAgree bareMachine (.lit (bytes "hello")) [] 0x2000 0x1000 3 (bytes "hello") := by
  let m := bareMachine.withoutBuffers 0x2000 0x1000 3 (bytes "hello").length
  obtain ⟨items, htext, hrender, hmatches⟩ :=
    exists_plain_items m (fun _ => []) (show 0 ∉ bytes "hello" by decide) (by decide)
  have hfmt : m.HasText (.lit (bytes "hello")) (items.flatMap Item.text) := by
    rw [htext]
    exact Machine.hasText_lit (forall_mem_bytes (by decide))
  have hrun := Machine.run_doVprintfBody hfmt hmatches {}
  rw [hrender] at hrun
  exact vsnprintf_agrees (g := ({} : Trace).print (bytes "hello")) hrun

end UefiKernel.Console
