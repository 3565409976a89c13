import VisualNovel.Display.Command
import VisualNovel.Log

/-!
# Displays

A display is any state with three operations. It may refuse a command, and it
may log while it executes one.
-/

namespace VisualNovel

/-- A display after one command. -/
structure Response (σ : Type) where
  display : σ
  refusal : Option DisplayError := none
  log : List LogEvent := []

structure DisplaySink (σ : Type) where
  execute : σ → DisplayCommand → Response σ
  /-- Whether the text on screen is shown in full. -/
  isTextReady : σ → Bool
  completeText : σ → σ

end VisualNovel
