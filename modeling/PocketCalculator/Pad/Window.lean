import PocketCalculator.Pad.Basic

/-!
# The window

The window shows the screen above the rows of keys and brings what its user does to the pad, one
frame at a time. A frame holds at most one completed click on a key, and the keyboard events that
arrived since the frame before.

## Main definitions

* `Event`, `Frame` — what reaches the window.
* `Pad.update` — the effect of a frame.
* `Window.rows`, `Window.texts` — what the window shows.
-/

namespace PocketCalculator

/-! ## Events -/

/-- The keys of a keyboard that act as such, and not by the text they type. -/
inductive PhysicalKey
  | enter
  | backspace
  | escape
  /-- Any other key; none of them does anything. -/
  | other
deriving DecidableEq, Repr

/-- An event of the keyboard or the clipboard. -/
inductive Event
  /-- Text was typed. -/
  | text (cs : List Char)
  /-- A key went down, or up. -/
  | key (k : PhysicalKey) (down : Bool)
  /-- Text was pasted, which does nothing. -/
  | paste (cs : List Char)
deriving DecidableEq, Repr

namespace Event

/-- The keys of the pad that an event stands for. Escape is no part of it: it acts on the frame. -/
def keys : Event → List Key
  | text cs => cs.filterMap Key.ofChar?
  | key .enter true => [.equals]
  | key .backspace true => [.delete]
  | key _ _ => []
  | paste _ => []

end Event

/-- What reaches the window between two repaints. -/
structure Frame where
  /-- The key on which a click was completed. -/
  click : Option Key := none
  /-- The events in the order of their arrival. -/
  events : List Event := []
deriving Repr

namespace Pad

/-- The effect of a frame. Escape clears first, wherever it stands among the events and however
often; the click follows, and then the other events in their order. -/
def update (p : Pad) (f : Frame) : Pad :=
  let p := if f.events.contains (.key .escape true) then cleared else p
  let p := match f.click with
    | some k => p.press k
    | none => p
  p.pressAll (f.events.flatMap Event.keys)

end Pad

/-! ## Appearance -/

namespace Window

/-- The title, shown above the screen. -/
def title : List Char := "Calculatrice".toList

/-- The keys, row by row. -/
def rows : List (List Key) :=
  [ [.clear, .percent, .delete, .operator .div],
    [.digit 7, .digit 8, .digit 9, .operator .mul],
    [.digit 4, .digit 5, .digit 6, .operator .sub],
    [.digit 1, .digit 2, .digit 3, .operator .add],
    [.doubleZero, .digit 0, .point, .equals] ]

/-- The key with a given label. -/
def keyLabelled? (label : List Char) : Option Key :=
  rows.flatten.find? (·.label == label)

/-- What the display shows. -/
def shown (p : Pad) : List Char := p.screen

/-- Whether the display is in the colour of errors. -/
def inErrorColour (p : Pad) : Bool := p.failed

/-- All texts of the window in the order in which they are painted. -/
def texts (p : Pad) : List (List Char) :=
  title :: shown p :: rows.flatten.map Key.label

end Window

end PocketCalculator
