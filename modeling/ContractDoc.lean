import ContractDoc.Main
import ContractDoc.Proofs.Cli.Run
import ContractDoc.Proofs.DocComment.Gathered
import ContractDoc.Proofs.Source.Items
import ContractDoc.Proofs.Source.Scan
import ContractDoc.Proofs.Traversal.Circle
import ContractDoc.Proofs.Traversal.Identity
import ContractDoc.Proofs.Traversal.Independence
import ContractDoc.Proofs.Traversal.Order
import ContractDoc.Proofs.Traversal.Override
import ContractDoc.Proofs.Traversal.Refusal
import ContractDoc.Proofs.Traversal.Sharing
import ContractDoc.Proofs.Tree.Function
import ContractDoc.Proofs.Tree.Hidden
import ContractDoc.Proofs.Tree.Place
import ContractDoc.Proofs.Tree.Uncommented
import ContractDoc.Proofs.Value.Json.Lossless
import ContractDoc.Proofs.Source.Joined
import ContractDoc.Proofs.Tree.Parameter
import ContractDoc.Proofs.Tree.Variable
import ContractDoc.Proofs.Tree.Import
import ContractDoc.Proofs.DocComment.Written
import ContractDoc.Proofs.DocComment.Reading
import ContractDoc.Proofs.DocComment.Refused
import ContractDoc.Proofs.DocComment.Divided
import ContractDoc.Proofs.DocComment.Kept
import ContractDoc.Proofs.Traversal.Members
import ContractDoc.Proofs.Traversal.Parsed
import ContractDoc.Proofs.Tree.Name
import ContractDoc.Proofs.Tree.OverrideList
import ContractDoc.Proofs.Source.Interleaved
import ContractDoc.Proofs.Tree.Enclosed
import ContractDoc.Proofs.Import.Search
