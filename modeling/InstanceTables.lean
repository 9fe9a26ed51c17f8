import InstanceTables.Main
import InstanceTables.Sorted
import InstanceTables.Writer.Session
import InstanceTables.Proofs.Distinct
import InstanceTables.Proofs.Closure
import InstanceTables.Proofs.Face
import InstanceTables.Proofs.Membership
import InstanceTables.Proofs.Tensor.Required
import InstanceTables.Proofs.Spelling
import InstanceTables.Proofs.Declaration.Name
import InstanceTables.Proofs.Text.Lines
import InstanceTables.Proofs.Text.Integer
import InstanceTables.Proofs.Catalogue.Table
import InstanceTables.Proofs.Declaration.Closed
import InstanceTables.Proofs.Catalogue.SeedWise
import InstanceTables.Proofs.Catalogue.Union
import InstanceTables.Proofs.Sink
import InstanceTables.Proofs.Writer.Sent
import InstanceTables.Proofs.Writer.Session
import InstanceTables.Proofs.Seed.Line
import InstanceTables.Proofs.Seed.Table
import InstanceTables.Proofs.Seed.Layout
import InstanceTables.Proofs.Catalogue.Exact
import InstanceTables.Proofs.Catalogue.Order
import InstanceTables.Proofs.FileStore
import InstanceTables.Proofs.Catalogue.Source
import InstanceTables.Proofs.Command.Run
import InstanceTables.Proofs.Command.Generate
import InstanceTables.Proofs.Command.Setting
import InstanceTables.Proofs.Command.Line
import InstanceTables.Proofs.Tensor.Enumeration
import InstanceTables.Proofs.Catalogue.Equality
import InstanceTables.Proofs.Report
import InstanceTables.Proofs.Catalogue.Projection
import InstanceTables.Proofs.Catalogue.UserView
import InstanceTables.Proofs.Tensor.Mapping
import InstanceTables.Proofs.Catalogue.Log
import InstanceTables.Proofs.Writer.Lines
import InstanceTables.Proofs.Catalogue.Source
