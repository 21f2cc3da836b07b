import HessianGo.Binding.File
import HessianGo.Binding.Json
import HessianGo.Config.Document
import HessianGo.Config.Parameter
import HessianGo.Registry.Load
import HessianGo.Proofs.Registry.Resolution
import HessianGo.Proofs.Registry.Lookup
import HessianGo.Proofs.Reader
import HessianGo.Proofs.Code.Expr
import HessianGo.Proofs.Binding.Stateless
import HessianGo.Proofs.Source.Names
import HessianGo.Proofs.Code.Name
import HessianGo.Proofs.Binding.Imports
import HessianGo.Proofs.Binding.Mirror
import HessianGo.Proofs.Source.Layout
import HessianGo.Proofs.Source.Token
import HessianGo.Proofs.Code.Literal
import HessianGo.Proofs.Source.IntegerLiteral
import HessianGo.Proofs.Source.Literal
import HessianGo.Proofs.Source.Escape
import HessianGo.Proofs.Source.Grammar
import HessianGo.Proofs.Source.EnumText
import HessianGo.Proofs.Source.Forest
import HessianGo.Proofs.Source.ForestText
import HessianGo.Proofs.Source.TreeShape
import HessianGo.Proofs.Source.WellFormed
import HessianGo.Proofs.Source.Declared
import HessianGo.Proofs.Source.DefaultText
import HessianGo.Proofs.Code.References
import HessianGo.Proofs.Binding.DeclaringFile
import HessianGo.Proofs.Code.TypeName
import HessianGo.Proofs.Registry.Load
import HessianGo.Proofs.Registry.Declared
import HessianGo.Proofs.Binding.Bound
import HessianGo.Proofs.Binding.LiteralDefault
import HessianGo.Proofs.Binding.TypeText
import HessianGo.Proofs.Binding.MapField
import HessianGo.Proofs.Binding.ReferencePath
import HessianGo.Proofs.Registry.Order
import HessianGo.Proofs.Binding.DefaultFit
import HessianGo.Proofs.Binding.Replay
import HessianGo.Proofs.Source.SpecialFloat
import HessianGo.Proofs.Binding.SpecialDefault
import HessianGo.Proofs.Registry.Shadowing
import HessianGo.Proofs.Source.OptionBlock
import HessianGo.Proofs.Source.DeclaredNumber
import HessianGo.Proofs.Code.CamelCase
import HessianGo.Proofs.Code.PackageName
import HessianGo.Proofs.Code.Predeclared
import HessianGo.Proofs.Binding.Registration
import HessianGo.Proofs.Config.Parameter
import HessianGo.Proofs.Config.Output
import HessianGo.Proofs.Source.StringUnits
import HessianGo.Proofs.Progress
import HessianGo.Proofs.Source.Repetition
import HessianGo.Proofs.Source.Bound
