import LayeredRtp.Packet.Text
import LayeredRtp.Packet.Wire
import LayeredRtp.Sender.Fill
import LayeredRtp.Encoder
import LayeredRtp.Mailbox
import LayeredRtp.Proofs.BufferContents
import LayeredRtp.Proofs.Pictures
import LayeredRtp.Proofs.PlannedLayers
import LayeredRtp.Proofs.ControllerSteps
import LayeredRtp.Proofs.PictureTracking
import LayeredRtp.Proofs.SoundEncoder
import LayeredRtp.Proofs.PreparedPictures
import LayeredRtp.Proofs.SkippedLayers
import LayeredRtp.Proofs.TakenLayers
import LayeredRtp.Proofs.EmittedPictures
import LayeredRtp.Proofs.EncoderRuns
import LayeredRtp.Proofs.ExtensionBlocks
import LayeredRtp.Proofs.RegisteredIds
import LayeredRtp.Proofs.NumberedPackets
import LayeredRtp.Proofs.PacketRoundTrip
import LayeredRtp.Proofs.NumberedRuns
import LayeredRtp.Proofs.ArchivedNumbers
import LayeredRtp.Proofs.FragmentBudget
import LayeredRtp.Proofs.FailedPictures
import LayeredRtp.Proofs.PacketGrammar
import LayeredRtp.Proofs.ResendHistory
import LayeredRtp.Proofs.LossReports
import LayeredRtp.Proofs.DroppedPictures
import LayeredRtp.Proofs.RememberedFrames
import LayeredRtp.Proofs.DroppableLayers
import LayeredRtp.Proofs.PartialPictures
import LayeredRtp.Proofs.FedTrackers
import LayeredRtp.Proofs.BareFrames
import LayeredRtp.Proofs.QueueRuns
import LayeredRtp.Proofs.PaddingHeaders
import LayeredRtp.Proofs.CodedFrames
import LayeredRtp.Proofs.KeyRequests
import LayeredRtp.Proofs.LayerAnnouncements
import LayeredRtp.Proofs.ResendOutcomes
import LayeredRtp.Proofs.PaddingBudget
import LayeredRtp.Proofs.RateWindow
import LayeredRtp.Proofs.RepairBudget
import LayeredRtp.Proofs.RebuiltPackets
import LayeredRtp.Proofs.RateRuns
import LayeredRtp.Proofs.DescriptorReading
import LayeredRtp.Proofs.FrameFragments
import LayeredRtp.Proofs.RepairRoom
import LayeredRtp.Proofs.CheckedReferences
import LayeredRtp.Proofs.TrimmedArchive
import LayeredRtp.Proofs.EvenPadding
import LayeredRtp.Proofs.CanonicalPackets
import LayeredRtp.Proofs.PairedIds
import LayeredRtp.Proofs.WorstBlocks
import LayeredRtp.Proofs.WellFormedPlans
import LayeredRtp.Proofs.FrameNumbers
import LayeredRtp.Proofs.NumberedPictures
import LayeredRtp.Proofs.ClosestNumbers
import LayeredRtp.Proofs.KeptNames
import LayeredRtp.Proofs.TimeRange
