import DocDirective.Main
import DocDirective.Arguments.Render
import DocDirective.Service.Answer
import DocDirective.Text.Line
import DocDirective.Proofs.Arguments.Concatenation
import DocDirective.Proofs.Arguments.Contract
import DocDirective.Proofs.Arguments.Opaque
import DocDirective.Proofs.Arguments.Requoting
import DocDirective.Proofs.CommandLine.Payload
import DocDirective.Proofs.CommandLine.Reporting
import DocDirective.Proofs.Descriptor.WellFormed
import DocDirective.Proofs.Directive.Comment
import DocDirective.Proofs.Directive.Naming
import DocDirective.Proofs.Directive.Segment
import DocDirective.Proofs.Invocation.Atomicity
import DocDirective.Proofs.Invocation.Batch
import DocDirective.Proofs.Invocation.Ending
import DocDirective.Proofs.Invocation.Expansion
import DocDirective.Proofs.Invocation.Keys
import DocDirective.Proofs.Invocation.Lifecycle
import DocDirective.Proofs.Invocation.Rechecking
import DocDirective.Proofs.Kind.Pointing
import DocDirective.Proofs.Manifest.Agreement
import DocDirective.Proofs.Manifest.Contract
import DocDirective.Proofs.Processor.Apart
import DocDirective.Proofs.Processor.Interleaving
import DocDirective.Proofs.Processor.Reading
import DocDirective.Proofs.Registry.Population
import DocDirective.Proofs.Route.Settling
