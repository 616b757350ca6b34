import Mathlib.Algebra.Group.Nat.Defs
import UefiKernel.Console.Printf

/-!
# UefiKernel.Framebuffer.Driver

The framebuffer console of `fb.c`.

Each pixel read or written and each byte of the font read is an event, so that
the accesses can be checked one by one.  The two do-while loops of
`fb_scrollup` are loops as the source has them, on 64-bit counters; the loops
with a constant or given bound count.
-/

namespace UefiKernel.Framebuffer

open Interact Prog
open Console (bytes)

/-! ## events -/

/-- An access to `Fb[i]` or to `__ascii_font[i]`. -/
inductive FbEvent
  | load (i : UInt64)
  | store (i : UInt64) (pixel : UInt32)
  | loadFont (i : UInt64)
  deriving DecidableEq, Repr

abbrev FbEvent.Answer : FbEvent → Type
  | load _ => UInt32
  | store _ _ => Unit
  | loadFont _ => UInt8

abbrev FbM := Prog FbEvent FbEvent.Answer

/-- `Fb[i]`. -/
def load (i : UInt64) : FbM UInt32 := req (FbEvent.load i)

/-- `Fb[i] = pixel`. -/
def store (i : UInt64) (pixel : UInt32) : FbM Unit := req (FbEvent.store i pixel)

/-- `__ascii_font[i]`. -/
def loadFont (i : UInt64) : FbM UInt8 := req (FbEvent.loadFont i)

/-! ## the driver -/

def fontWidth : UInt32 := 8

def fontHeight : UInt32 := 16

/-- The static variables. -/
structure Statics where
  width : UInt32
  posX : UInt32
  posY : UInt32
  maxX : UInt32
  maxY : UInt32
  deriving DecidableEq, Repr

/-- One pass of the loop that moves the text up, on `cur` and `count`. -/
def moveStep (row : UInt64) : UInt64 × UInt64 → FbM (UInt64 × UInt64 ⊕ UInt64)
  | (cur, count) => do
    let pixel ← load (cur + row)
    store cur pixel
    let cur := cur + 1
    let count := count - 1
    if count ≠ 0 then
      return .inl (cur, count)
    return .inr cur

/-- One pass of the loop that cleans up the last row, on `cur` and `row`. -/
def cleanStep : UInt64 × UInt64 → FbM (UInt64 × UInt64 ⊕ Unit)
  | (cur, row) => do
    store cur 0
    let cur := cur + 1
    let row := row - 1
    if row ≠ 0 then
      return .inl (cur, row)
    return .inr ()

def fbScrollup (s : Statics) : FbM Unit := do
  let count := (s.width * ((s.maxY - 1) * fontHeight)).toUInt64
  let row := (s.width * fontHeight).toUInt64
  let cur ← loop (moveStep row) (0, count)
  loop cleanStep (cur, row)

/-- A new row at a newline and where the row is full. -/
def Statics.breakRow (s : Statics) (ch : UInt8) : Statics :=
  if ch = '\n'.toUInt8 ∨ s.posX = s.maxX then { s with posX := 0, posY := s.posY + 1 } else s

/-- The text moves up if there is no row left. -/
def makeRoom (s : Statics) : FbM Statics := do
  if s.posY = s.maxY then
    let s := { s with posY := s.posY - 1 }
    fbScrollup s
    return s
  return s

/-- One pixel of a row of the glyph. -/
def drawPixel (cur : UInt64) (i : Nat) (bitmap : Int8) : FbM Int8 := do
  let color := bitmap >>> 7
  store (cur + i.toUInt64) color.toInt32.toUInt32
  return bitmap <<< 1

/-- One row of the glyph. -/
def drawRow (s : Statics) (ptr : UInt64) (j : Nat) (cur : UInt64) : FbM UInt64 := do
  let bitmap ← loadFont (ptr + j.toUInt64)
  let _ ← forCount (drawPixel cur) 0 fontWidth.toNat bitmap.toInt8
  return cur + s.width.toUInt64

def drawGlyph (s : Statics) (ch : UInt8) : FbM Unit := do
  let ptr := ch.toUInt64 * (fontWidth * fontHeight / 8).toUInt64
  let cur := s.posX.toUInt64 * fontWidth.toUInt64 + (s.posY * fontHeight * s.width).toUInt64
  let _ ← forCount (drawRow s ptr) 0 fontHeight.toNat cur
  return ()

/-- `fb_output`, with the character to show. -/
def outputChar (s : Statics) (ch : UInt8) : FbM Statics := do
  let s ← makeRoom (s.breakRow ch)
  if ch = '\n'.toUInt8 then
    return s
  drawGlyph s ch
  return { s with posX := s.posX + 1 }

def fbOutput (s : Statics) (ch : UInt8) : FbM Statics :=
  if ch.toInt8 ≤ 0 then
    if ch = 0 then return s else outputChar s '?'.toUInt8
  else outputChar s ch

/-- `HELLO_STATEMENT`. -/
def helloStatement : List UInt8 :=
  bytes "Framebuffer Console (ECE 6504)\nCopyright (C) 2021 Ruslan Nikolaev\n\n"

def fbInit (width height : UInt32) : FbM Statics := do
  let num := width.toUInt64 * height.toUInt64
  forCount (fun i _ => store i.toUInt64 0) 0 num.toNat ()
  let s : Statics :=
    { width := width, posX := 0, posY := 0, maxX := width / fontWidth, maxY := height / fontHeight }
  helloStatement.foldlM fbOutput s

/-- `fb_init`, and then the bytes of a text sent to `fb_output`. -/
def console (width height : UInt32) (text : List UInt8) : FbM Statics := do
  let s ← fbInit width height
  text.foldlM fbOutput s

end UefiKernel.Framebuffer
