import Scriptlet.Main
import Scriptlet.Proofs.Arithmetic
import Scriptlet.Proofs.Balance
import Scriptlet.Proofs.Console
import Scriptlet.Proofs.Containment
import Scriptlet.Proofs.Cycle
import Scriptlet.Proofs.Denotation
import Scriptlet.Proofs.Equality
import Scriptlet.Proofs.Expansion
import Scriptlet.Proofs.Grouping
import Scriptlet.Proofs.Hoisting
import Scriptlet.Proofs.HostFree
import Scriptlet.Proofs.Index
import Scriptlet.Proofs.Interpolation
import Scriptlet.Proofs.Iteration
import Scriptlet.Proofs.Joining
import Scriptlet.Proofs.Layout
import Scriptlet.Proofs.LineEnd
import Scriptlet.Proofs.Locality
import Scriptlet.Proofs.Naming
import Scriptlet.Proofs.Newline
import Scriptlet.Proofs.Order
import Scriptlet.Proofs.Overrun
import Scriptlet.Proofs.Ownership
import Scriptlet.Proofs.Payload
import Scriptlet.Proofs.Placement
import Scriptlet.Proofs.Quotation
import Scriptlet.Proofs.Radix
import Scriptlet.Proofs.Readback
import Scriptlet.Proofs.Relexing
import Scriptlet.Proofs.Renaming
import Scriptlet.Proofs.Replacing
import Scriptlet.Proofs.Respelling
import Scriptlet.Proofs.Restriction
import Scriptlet.Proofs.RoundTrip
import Scriptlet.Proofs.Scope
import Scriptlet.Proofs.Seclusion
import Scriptlet.Proofs.Sorting
import Scriptlet.Proofs.Splicing
import Scriptlet.Proofs.Unwinding
import Scriptlet.Proofs.Walkability
import Scriptlet.Proofs.Word
import Scriptlet.Proofs.Writing
