import ChipEight.Execution
import ChipEight.Clock.Exact
import ChipEight.Session
import ChipEight.Main
import ChipEight.Proofs.CallReturn
import ChipEight.Proofs.Endings
import ChipEight.Proofs.FaultAddress
import ChipEight.Proofs.Operations
import ChipEight.Proofs.DisplayCalls
import ChipEight.Proofs.KeyAnswers
import ChipEight.Proofs.Reset
import ChipEight.Proofs.Halting
import ChipEight.Proofs.KeyHistory
import ChipEight.Proofs.KeySnapshots
import ChipEight.Proofs.ScreenParity
import ChipEight.Proofs.ExactClock
import ChipEight.Proofs.Timeless
import ChipEight.Proofs.FrameRate
import ChipEight.Proofs.Footprint
import ChipEight.Proofs.LastStored
import ChipEight.Proofs.DialectChoices
import ChipEight.Proofs.WindowPicture
import ChipEight.Proofs.WindowPace
import ChipEight.Proofs.Countdown
import ChipEight.Proofs.RandomStream
import ChipEight.Proofs.AddressWrap
import ChipEight.Proofs.ClockTotals
import ChipEight.Proofs.PixelByPixel
import ChipEight.Proofs.Watchers
import ChipEight.Proofs.InBounds
import ChipEight.Proofs.UpdateSteps
import ChipEight.Proofs.KeyWait
import ChipEight.Proofs.Transfers
import ChipEight.Proofs.Arithmetic
import ChipEight.Proofs.Successor
import ChipEight.Proofs.BoundedStack
import ChipEight.Proofs.ClippedSprite
import ChipEight.Proofs.ProgramImage
import ChipEight.Proofs.RefusedSpans
import ChipEight.Proofs.FaithfulPicture
