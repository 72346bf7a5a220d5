import DocIndex.Main
import DocIndex.Proofs.Builtin.Lengths
import DocIndex.Proofs.Document.Errors
import DocIndex.Proofs.Document.Fences
import DocIndex.Proofs.Document.MemberSections
import DocIndex.Proofs.Engine.Decoding
import DocIndex.Proofs.Engine.History
import DocIndex.Proofs.Index.AliasListing
import DocIndex.Proofs.Index.FullText
import DocIndex.Proofs.Index.Modules
import DocIndex.Proofs.Markup.Document
import DocIndex.Proofs.Markup.PlainText
import DocIndex.Proofs.Resolve.Precedence
import DocIndex.Proofs.Resolve.SeparateModules
import DocIndex.Proofs.Resolve.SubmoduleGuess
import DocIndex.Proofs.Session.AliasModule
import DocIndex.Proofs.Session.Concrete
import DocIndex.Proofs.Session.Private
import DocIndex.Proofs.Session.Protocol
import DocIndex.Proofs.Session.Stateless
import DocIndex.Proofs.Session.Transparency
import DocIndex.Proofs.Snapshot.Built
import DocIndex.Proofs.Snapshot.Json
import DocIndex.Proofs.Snapshot.Lineage
import DocIndex.Proofs.Snapshot.Names
