import VisualNovel.Affection.Watched
import VisualNovel.Display.Recording
import VisualNovel.Interpreter.Autoplay
import VisualNovel.Main
import VisualNovel.Proofs.Session.History
import VisualNovel.Proofs.Script.ScanLaws
import VisualNovel.Proofs.Session.StateInvariant
import VisualNovel.Proofs.Session.Bisimulation
import VisualNovel.Proofs.Session.Readiness
import VisualNovel.Proofs.Session.BranchBit
import VisualNovel.Proofs.Block.Basic
import VisualNovel.Proofs.Block.Scan
import VisualNovel.Proofs.Block.Run
import VisualNovel.Proofs.Session.Told
import VisualNovel.Proofs.Session.Warnings
import VisualNovel.Proofs.Diagnostic.Partners
import VisualNovel.Proofs.Story.Autoplay
import VisualNovel.Proofs.Playthrough.Timing
import VisualNovel.Proofs.Stage.Words
import VisualNovel.Proofs.Stage.Acts
import VisualNovel.Proofs.Playthrough.Acts
import VisualNovel.Proofs.Stage.Reading
import VisualNovel.Proofs.Interpreter.Requests
import VisualNovel.Proofs.Playthrough.Records
import VisualNovel.Proofs.Stage.AssetLaws
import VisualNovel.Proofs.Stage.Cleared
import VisualNovel.Proofs.Stage.RevealPace
import VisualNovel.Proofs.Stage.Wrapping
import VisualNovel.Proofs.Stage.MenusLeft
import VisualNovel.Proofs.Stage.Layers
import VisualNovel.Proofs.Stage.Acceptance
import VisualNovel.Proofs.Stage.Slots
import VisualNovel.Proofs.Stage.Overlays
import VisualNovel.Proofs.Script.Grammar
import VisualNovel.Proofs.Playthrough.Assets
import VisualNovel.Proofs.Script.FlatBlocks
import VisualNovel.Proofs.Session.ScanModes
import VisualNovel.Proofs.Session.JustPassed
import VisualNovel.Proofs.Session.Strides
import VisualNovel.Proofs.Session.BranchStack
import VisualNovel.Proofs.Session.ChainLimit
import VisualNovel.Proofs.Session.Trail
import VisualNovel.Proofs.Session.Culprits
import VisualNovel.Proofs.Session.IdleInputs
import VisualNovel.Proofs.Story.Forward
import VisualNovel.Proofs.Script.ScanTargets
import VisualNovel.Proofs.Script.Enclosure
import VisualNovel.Proofs.Script.Labels
import VisualNovel.Proofs.Script.Loading
import VisualNovel.Proofs.Affection.Ledger
import VisualNovel.Proofs.Diagnostic.Duplicates
import VisualNovel.Proofs.Interpreter.LabelJumps
import VisualNovel.Proofs.Session.Landings
import VisualNovel.Proofs.Choice.Delivery
import VisualNovel.Proofs.Playthrough.Pointing
import VisualNovel.Proofs.Script.Recognition
import VisualNovel.Proofs.Serial.ReadBack
import VisualNovel.Proofs.Serial.Omission
import VisualNovel.Proofs.Session.CarryingOut
