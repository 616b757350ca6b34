import UefiKernel.Console.Calls
import UefiKernel.Framebuffer.Tail
import UefiKernel.Lib.Handle

/-!
# UefiKernel.Framebuffer.Printing

`printf` on the framebuffer: the formatter with `fb_output` for its output
function.

`onScreen` is a program of the formatter's with each byte that it puts out sent
to the driver.  It does the same to the text on the screen as the program does
to the text of an abstract machine, in every run (`wp_onScreen`) and in some run
(`run_onScreen`).  So the screen shows the tail of what the calls of `printf`
mean (`printf_shows_tail`).
-/

namespace UefiKernel.Framebuffer

open Interact Prog
open Console (CharPtr Means bytes PrintEvent PrintM Trace Via printAll run_printAll)

/-! ## the two together -/

/-- What the formatter and the driver do in memory. -/
inductive ScreenEvent
  | load (via : Via) (p : UInt64)
  | vaArg
  | fb (e : FbEvent)
  deriving DecidableEq, Repr

abbrev ScreenEvent.Answer : ScreenEvent → Type
  | load _ _ => UInt8
  | vaArg => UInt64
  | fb e => e.Answer

abbrev ScreenM := Prog ScreenEvent ScreenEvent.Answer

/-- A program of the driver's. -/
def onFb {α : Type} (p : FbM α) : ScreenM α := embed ScreenEvent.fb (fun _ r => r) p

/-- What an event of the formatter is, with `fb_output` for `fn`. -/
def outputEvent (s : Statics) : (e : PrintEvent) → ScreenM (e.Answer × Statics)
  | .load via p => (req (ScreenEvent.load via p)).bind fun ch => ret (ch, s)
  | .vaArg => (req ScreenEvent.vaArg).bind fun arg => ret (arg, s)
  | .fn ch => (onFb (fbOutput s ch)).bind fun s => ret ((), s)

def onScreen {α : Type} (p : PrintM α) (s : Statics) : ScreenM (α × Statics) :=
  handle outputEvent p s

/-- The pixels, and how many arguments were fetched that nobody passed. -/
structure Screen where
  fetched : Nat := 0
  pixels : Pixels

/-- The memory that is read, and the framebuffer. -/
def screenEnv (m : Console.Machine) (font : Nat → UInt8) :
    Screen → (e : ScreenEvent) → e.Answer → Screen → Prop
  | w, .load _ p, ch, w' => m.mem p = some ch ∧ w' = w
  | w, .vaArg, arg, w' => arg = m.junk w.fetched ∧ w' = { w with fetched := w.fetched + 1 }
  | w, .fb e, r, w' => ∃ px, fbEnv font w.pixels e r px ∧ w' = { w with pixels := px }

def ScreenEvent.Inside (size : Nat) : ScreenEvent → Prop
  | load _ _ | vaArg => True
  | fb e => e.Inside size

/-- The framebuffer alone, as part of the screen. -/
def pixelsEnv (font : Nat → UInt8) : Screen → (e : FbEvent) → e.Answer → Screen → Prop
  | w, e, r, w' => ∃ px, fbEnv font w.pixels e r px ∧ w' = { w with pixels := px }

/-! ## the text on the screen -/

section Screens

variable {font : Nat → UInt8} {width height : UInt32} {m : Console.Machine}
  {text : List UInt8} {s : Statics} {g g' : Trace} {w : Screen}

/-- The driver sees nothing but the pixels. -/
theorem wp_onFb {α : Type} {p : FbM α} {Q : α → Pixels → Prop} {size : Nat}
    (h : wp (fbEnv font) (fun _ e => e.Inside size) p Q w.pixels) :
    wp (screenEnv m font) (fun _ e => e.Inside size) (onFb p)
      (fun a w' => Q a w'.pixels ∧ w'.fetched = w.fetched) w := by
  have hpixels : wp (pixelsEnv font) (fun _ e => e.Inside size) p
      (fun a w' => ∃ px, Q a px ∧ w'.pixels = px ∧ w'.fetched = w.fetched) w := by
    refine wp_simulate (R := fun px (w' : Screen) => w'.pixels = px ∧ w'.fetched = w.fetched)
      ?_ (fun _ (e : FbEvent) _ (hok : e.Inside size) _ => hok) h ⟨rfl, rfl⟩
    rintro _ e r w₁ _ ⟨px, he, rfl⟩ ⟨rfl, hfetched⟩
    exact ⟨px, he, rfl, hfetched⟩
  refine wp_mono ?_ (wp_embed (f := ScreenEvent.fb) (h := fun _ r => r)
    (fun _ _ _ _ he => he) (fun _ _ hok => hok) hpixels)
  rintro a w' ⟨_, hQ, rfl, hfetched⟩
  exact ⟨hQ, hfetched⟩

theorem run_onFb {α : Type} {p : FbM α} {a : α} {px : Pixels}
    (h : Run (fbEnv font) (w.pixels, p) (px, ret a)) :
    Run (screenEnv m font) (w, onFb p) ({ w with pixels := px }, ret a) := by
  obtain ⟨w', hr, rfl⟩ : ∃ w', Run (pixelsEnv font) (w, p) (w', ret a) ∧
      w' = { w with pixels := px } := by
    refine h.simulate (R := fun px w' => w' = { w with pixels := px }) ?_ rfl
    rintro _ e r px₁ _ he rfl
    exact ⟨_, ⟨px₁, he, rfl⟩, rfl⟩
  exact Run.embed (f := ScreenEvent.fb) (h := fun _ r => r) (q := ret a)
    (fun _ _ r _ he => ⟨r, rfl, he⟩) hr

/-- The screen shows what was printed behind `text`. -/
structure Follows (font : Nat → UInt8) (width height : UInt32) (text : List UInt8) (g : Trace)
    (s : Statics) (w : Screen) : Prop where
  shown : Shown font width height ((text ++ g.out).filterMap shownChar) s w.pixels
  fetched : w.fetched = g.fetched

theorem Follows.print {ch : UInt8} {px : Pixels} (h : Follows font width height text g s w)
    {s' : Statics}
    (hs : Shown font width height ((text ++ g.out ++ [ch]).filterMap shownChar) s' px) :
    Follows font width height text (g.print [ch]) s' { w with pixels := px } :=
  ⟨by rwa [Trace.print_out, ← List.append_assoc], h.fetched⟩

variable (hgeo : Geometry width height)
include hgeo

/-- Each event comes to what the formatter relies on. -/
theorem wp_outputEvent (e : PrintEvent) (h : Follows font width height text g s w) :
    wp (screenEnv m font) (fun _ e => e.Inside (width.toNat * height.toNat)) (outputEvent s e)
      (fun r w' => ∃ g', m.env g e r.1 g' ∧ Follows font width height text g' r.2 w') w := by
  cases e with
  | load via p =>
      refine ⟨trivial, ?_⟩
      rintro ch _ ⟨hmem, rfl⟩
      exact ⟨g, ⟨hmem, rfl⟩, h⟩
  | vaArg =>
      refine ⟨trivial, ?_⟩
      rintro arg _ ⟨hjunk, rfl⟩
      exact ⟨_, ⟨hjunk.trans (congrArg m.junk h.fetched), rfl⟩, h.shown, congrArg (· + 1) h.fetched⟩
  | fn ch =>
      have hone : wp (fbEnv font) (fun _ e => e.Inside (width.toNat * height.toNat))
          (fbOutput s ch)
          (Shown font width height ((text ++ g.out ++ [ch]).filterMap shownChar)) w.pixels :=
        holds_fbOutput (display_wp font _) hgeo h.shown
      refine wp_bind.mpr (wp_mono ?_ (wp_onFb hone))
      rintro s' w' ⟨hs', hfetched⟩
      refine ⟨_, rfl, ?_, hfetched.trans h.fetched⟩
      rw [Trace.print_out, ← List.append_assoc]
      exact hs'

/-- Each event can come to what it does on the abstract machine. -/
theorem run_outputEvent {e : PrintEvent} {r : e.Answer} (he : m.env g e r g')
    (h : Follows font width height text g s w) :
    ∃ s' w', Run (screenEnv m font) (w, outputEvent s e) (w', ret (r, s')) ∧
      Follows font width height text g' s' w' := by
  cases e with
  | load via p =>
      obtain ⟨hmem, rfl⟩ := he
      have hload : Run (screenEnv m font) (w, outputEvent s (.load via p)) (w, ret (_, s)) :=
        Run.seq (Run.req (e := ScreenEvent.load via p) ⟨hmem, rfl⟩) .refl
      exact ⟨s, w, hload, h⟩
  | vaArg =>
      obtain ⟨rfl, rfl⟩ := he
      have hjunk : m.junk g.fetched = m.junk w.fetched := congrArg m.junk h.fetched.symm
      have hfetch : Run (screenEnv m font) (w, outputEvent s .vaArg)
          ({ w with fetched := w.fetched + 1 }, ret (m.junk g.fetched, s)) :=
        Run.seq (Run.req (e := ScreenEvent.vaArg) ⟨hjunk, rfl⟩) .refl
      exact ⟨s, _, hfetch, h.shown, congrArg (· + 1) h.fetched⟩
  | fn ch =>
      obtain rfl := he
      have hreaches : Reaches (fbEnv font) (fun _ _ => False) (fbOutput s ch)
          (Shown font width height ((text ++ g.out ++ [ch]).filterMap shownChar)) w.pixels :=
        holds_fbOutput (display_reach font _ _) hgeo h.shown
      rcases hreaches with ⟨_, _, _, _, hfalse⟩ | ⟨s', px, hr, hs'⟩
      · exact hfalse.elim
      · exact ⟨s', _, (run_onFb hr).seq .refl, h.print hs'⟩

/-- **Every run** puts the text that the program prints on the screen, and all
accesses of the driver are inside the framebuffer. -/
theorem wp_onScreen {α : Type} {p : PrintM α} {Q : α → Trace → Prop}
    (hp : wp m.env (fun _ _ => True) p Q g) (h : Follows font width height text g s w) :
    wp (screenEnv m font) (fun _ e => e.Inside (width.toNat * height.toNat)) (onScreen p s)
      (fun r w' => ∃ g', Q r.1 g' ∧ Follows font width height text g' r.2 w') w :=
  wp_handle (fun _ e _ _ _ h => wp_outputEvent hgeo e h) hp h

/-- **Some run** does, if the program comes to an end. -/
theorem run_onScreen {α : Type} {p : PrintM α} {a : α} (hr : Run m.env (g, p) (g', ret a))
    (h : Follows font width height text g s w) :
    ∃ s' w', Run (screenEnv m font) (w, onScreen p s) (w', ret (a, s')) ∧
      Follows font width height text g' s' w' := by
  have hevent : ∀ g e r g' s w, m.env g e r g' → True → Follows font width height text g s w →
      ∃ s' w', Run (screenEnv m font) (w, outputEvent s e) (w', ret (r, s')) ∧
        Follows font width height text g' s' w' :=
    fun _ _ _ _ _ _ he _ hs => run_outputEvent hgeo he hs
  exact hr.handle (fun _ _ _ _ _ _ => trivial) hevent trivial h

end Screens

/-! ## calls of `printf` -/

/-- The NULs do not show. -/
theorem filterMap_shownChar_flatMap (texts : List (List UInt8)) :
    (texts.flatMap (· ++ [0])).filterMap shownChar = texts.flatten.filterMap shownChar := by
  induction texts with
  | nil => rfl
  | cons text texts ih =>
      have hnul : ([0] : List UInt8).filterMap shownChar = [] := rfl
      rw [List.flatMap_cons, List.flatten_cons, List.filterMap_append, List.filterMap_append,
        List.filterMap_append, ih, hnul, List.append_nil]

/-- `fb_init`, and then calls of `printf`. -/
def initAndPrint (width height : UInt32) (calls : List (CharPtr × List UInt64)) :
    ScreenM (Unit × Statics) := do
  let s ← onFb (fbInit width height)
  onScreen (printAll calls) s

section Init

variable (font : Nat → UInt8) {width height : UInt32} (hgeo : Geometry width height)
  (m : Console.Machine) (w : Screen)

include hgeo

theorem wp_fbInit : wp (screenEnv m font) (fun _ e => e.Inside (width.toNat * height.toNat))
    (onFb (fbInit width height))
    (fun s w' => Shown font width height (helloStatement.filterMap shownChar) s w'.pixels ∧
      w'.fetched = w.fetched) w := by
  refine wp_onFb ?_
  rw [fbInit_eq_printed]
  exact holds_printed (display_wp font _) hgeo helloStatement w.pixels

theorem run_fbInit : ∃ s px, Run (screenEnv m font) (w, onFb (fbInit width height))
    ({ w with pixels := px }, ret s) ∧
      Shown font width height (helloStatement.filterMap shownChar) s px := by
  rw [fbInit_eq_printed]
  rcases holds_printed (display_reach font _ fun _ _ => False) hgeo helloStatement w.pixels with
    ⟨_, _, _, _, hfalse⟩ | ⟨s, px, hr, hs⟩
  · exact hfalse.elim
  · exact ⟨s, px, run_onFb hr, hs⟩

variable {calls : List (CharPtr × List UInt64)} {texts : List (List UInt8)}
  (h : List.Forall₂ (Means m) calls texts)

include h

theorem wp_initAndPrint : wp (screenEnv m font)
    (fun _ e => e.Inside (width.toNat * height.toNat)) (initAndPrint width height calls)
    (fun r w' => Shown font width height ((helloStatement ++ texts.flatten).filterMap shownChar) r.2
      w'.pixels) w := by
  refine wp_bind.mpr (wp_mono ?_ (wp_fbInit font hgeo m w))
  rintro s w₁ ⟨hs, hfetched⟩
  have hprint := wp_of_deterministic m.deterministic (run_printAll h { fetched := w.fetched })
    (Q := fun _ g' => g' = _) rfl
  refine wp_mono ?_ (wp_onScreen hgeo hprint (s := s) (w := w₁)
    ⟨by rwa [List.append_nil], hfetched⟩)
  rintro r w' ⟨_, rfl, hshown, -⟩
  rwa [Trace.print_out, List.nil_append, List.filterMap_append, filterMap_shownChar_flatMap,
    ← List.filterMap_append] at hshown

theorem exists_run_initAndPrint : ∃ s w', Run (screenEnv m font)
    (w, initAndPrint width height calls) (w', ret ((), s)) := by
  obtain ⟨s, px, hinit, hs⟩ := run_fbInit font hgeo m w
  have hfollows : Follows font width height helloStatement { fetched := w.fetched } s
      { w with pixels := px } := ⟨by rwa [List.append_nil], rfl⟩
  obtain ⟨s', w', hr, -⟩ := run_onScreen hgeo (run_printAll h { fetched := w.fetched }) hfollows
  exact ⟨s', w', hinit.seq hr⟩

/-- **The screen shows the tail of what was printed.** After `fb_init` and any
calls of `printf`, the pixels are those of the last rows of the texts that the
formats mean; each run comes there, and has all accesses inside the framebuffer
and the font. -/
theorem printf_shows_tail :
    (∀ w' e k, Run (screenEnv m font) (w, initAndPrint width height calls) (w', call e k) →
      e.Inside (width.toNat * height.toNat)) ∧
    (∃ s w', Run (screenEnv m font) (w, initAndPrint width height calls) (w', ret ((), s))) ∧
    ∀ s w', Run (screenEnv m font) (w, initAndPrint width height calls) (w', ret ((), s)) →
      ShowsTail font width.toNat height.toNat (helloStatement ++ texts.flatten) w'.pixels := by
  have hall := wp_initAndPrint font hgeo m w h
  refine ⟨fun w' e k hr => ?_, exists_run_initAndPrint font hgeo m w h, fun s w' hr => ?_⟩
  · have hok := ok_of_run hall hr
    exact hok
  · have hshown := post_of_run hall hr
    exact hshown.showsTail hgeo

end Init

/-- A text and a number, on the smallest screen. -/
theorem printf_shows_tail_sample :
    ∃ s w', Run (screenEnv ⟨fun _ => none, fun _ => 0⟩ fun _ => 0)
      ({ pixels := fun _ => 7 }, initAndPrint 8 32 [(.lit (bytes "n: %d\n"), [42])])
      (w', ret ((), s)) ∧
      ShowsTail (fun _ => 0) 8 32 (helloStatement ++ bytes "n: 42\n") w'.pixels := by
  have hgeo : Geometry 8 32 := ⟨by decide, by decide, by decide⟩
  let m : Console.Machine := ⟨fun _ => none, fun _ => 0⟩
  have hspells : Console.Spells m (bytes "n: " ++ (bytes "%d" ++ (bytes "\n" ++ []))) [42] _ :=
    (((Console.Spells.nil m).plain (by decide)).int 42).plain (by decide)
  have hmeans : Means m (.lit (bytes "n: %d\n"), [42]) (bytes "n: 42\n") :=
    hspells.means (by decide)
  obtain ⟨-, ⟨s, w', hr⟩, hshows⟩ := printf_shows_tail (fun _ => 0) hgeo m
    { pixels := fun _ => 7 } (.cons hmeans .nil)
  exact ⟨s, w', hr, hshows s w' hr⟩

end UefiKernel.Framebuffer
