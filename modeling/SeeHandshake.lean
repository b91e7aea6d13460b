import SeeHandshake.Bytes
import SeeHandshake.Lib.Peel
import SeeHandshake.Lib.Receiver
import SeeHandshake.Model.Connection
import SeeHandshake.Parser.Handshake
import SeeHandshake.Parser.Wire
import SeeHandshake.Proofs.CallProofs
import SeeHandshake.Tracker.Reassembly
import SeeHandshake.Tracker.Runs
import SeeHandshake.Parser.Reference
import SeeHandshake.Proofs.SegmentationProofs
import SeeHandshake.Lib.Simulation
import SeeHandshake.Proofs.CcsProofs
import SeeHandshake.Proofs.ErrorProofs
import SeeHandshake.Proofs.HeaderProofs
import SeeHandshake.Proofs.MessageProofs
import SeeHandshake.Lib.Product
import SeeHandshake.Proofs.AgreementProofs
import SeeHandshake.Proofs.ConfluenceProofs
import SeeHandshake.Proofs.EvictionProofs
import SeeHandshake.Proofs.LifetimeProofs
import SeeHandshake.Proofs.ExtensionProofs
import SeeHandshake.Proofs.FramingProofs
import SeeHandshake.Proofs.HelloProofs
import SeeHandshake.Proofs.AppProofs
import SeeHandshake.Proofs.LiveProofs
import SeeHandshake.Proofs.EndpointProofs
import SeeHandshake.Proofs.StageProofs
import SeeHandshake.Proofs.BufferProofs
import SeeHandshake.Proofs.FlowProofs
import SeeHandshake.Proofs.RetainedProofs
import SeeHandshake.Proofs.CiphertextProofs
import SeeHandshake.Proofs.CursorProofs
import SeeHandshake.Proofs.LabelProofs
import SeeHandshake.Proofs.OrderProofs
import SeeHandshake.Lib.Triple
import SeeHandshake.Proofs.FullHandshakeProofs
import SeeHandshake.Proofs.CompletionProofs
import SeeHandshake.Proofs.PanicProofs
import SeeHandshake.Lib.Pinned
import SeeHandshake.Proofs.SectionProofs
import SeeHandshake.Proofs.AttributionProofs
import SeeHandshake.Proofs.RightPaneProofs
import SeeHandshake.Proofs.ShutdownProofs
import SeeHandshake.Proofs.LiveResolverProofs
import SeeHandshake.Proofs.DisplayProofs
import SeeHandshake.Proofs.HexProofs
import SeeHandshake.Proofs.KeyShareProofs
import SeeHandshake.Proofs.DrawProofs
import SeeHandshake.Proofs.ConversationProofs
import SeeHandshake.Proofs.CatchUpProofs
import SeeHandshake.Proofs.AccountProofs
import SeeHandshake.Proofs.NavigationProofs
