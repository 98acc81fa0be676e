import Hotswap.Command.Report
import Hotswap.Description
import Hotswap.FileTree
import Hotswap.Main
import Hotswap.Opcode.Lookup
import Hotswap.Proofs.Machine.Step
import Hotswap.Proofs.Body.Soundness
import Hotswap.Proofs.Machine.Expression
import Hotswap.Proofs.Decimal.Digits
import Hotswap.Proofs.TypeName.Scanner
import Hotswap.Proofs.TypeName.Name
import Hotswap.Proofs.TypeName.Grammar
import Hotswap.Proofs.Signature
import Hotswap.Proofs.Document.Number
import Hotswap.Proofs.Document.Reader
import Hotswap.Proofs.Document.Decoder
import Hotswap.Proofs.Opcode.Lookup
import Hotswap.Proofs.Instruction.Wire
import Hotswap.Proofs.Descriptor.Wire
import Hotswap.Proofs.Arithmetic.Rounding
import Hotswap.Proofs.Decimal.Shortest
import Hotswap.Proofs.Document.Scaling
import Hotswap.Proofs.Document.Float
import Hotswap.Proofs.Descriptor.Accepted
import Hotswap.Proofs.Symbols.Memo
import Hotswap.Proofs.TypeName.Substitution
import Hotswap.Proofs.Signature.Identity
import Hotswap.Proofs.Method.Routes
import Hotswap.Proofs.Manifest
import Hotswap.Proofs.Source.Loading
import Hotswap.Proofs.Source.Shelf
import Hotswap.Proofs.Source.Directory
import Hotswap.Proofs.Source.Exactness
import Hotswap.Proofs.Method.Instantiation
import Hotswap.Proofs.Engine.Redirect
import Hotswap.Proofs.Machine.Carried
import Hotswap.Proofs.Machine.Alike
import Hotswap.Proofs.Machine.Lockstep
import Hotswap.Proofs.Machine.Calls
import Hotswap.Proofs.Machine.Isolation
import Hotswap.Proofs.Machine.Closed
import Hotswap.Proofs.Machine.Fields
import Hotswap.Proofs.Machine.Arrays
import Hotswap.Proofs.Machine.Shift
import Hotswap.Proofs.Machine.Uniform
import Hotswap.Proofs.Machine.Unseen
import Hotswap.Proofs.Machine.Live
import Hotswap.Proofs.Machine.LiveRun
import Hotswap.Proofs.Machine.Proper
import Hotswap.Proofs.Machine.Delegates
import Hotswap.Proofs.Machine.Library
import Hotswap.Proofs.Machine.Below
import Hotswap.Proofs.Machine.Sessions
import Hotswap.Proofs.Machine.ArraySum
import Hotswap.Proofs.Arithmetic.Integers
import Hotswap.Proofs.Arithmetic.Conversions
import Hotswap.Proofs.Arithmetic.Promotion
import Hotswap.Proofs.Machine.Comparisons
import Hotswap.Proofs.Machine.Branches
import Hotswap.Proofs.Symbols.Hierarchy
import Hotswap.Proofs.Machine.Instances
import Hotswap.Proofs.Symbols.Arity
import Hotswap.Proofs.CoreLibrary.Format
import Hotswap.Proofs.TypeName.Placeholders
import Hotswap.Proofs.Machine.TypeMemo
import Hotswap.Proofs.Machine.Statics
import Hotswap.Proofs.Instruction.Members
import Hotswap.Proofs.Signature.Bytewise
