import Cookbook.Main
import Cookbook.Web
import Cookbook.Proofs.Build.Total
import Cookbook.Proofs.Build.Rebuild
import Cookbook.Proofs.Response.Source
import Cookbook.Proofs.Report
import Cookbook.Proofs.Value.Written
import Cookbook.Proofs.CommandLine
import Cookbook.Proofs.Web.Address
import Cookbook.Proofs.Build.Faults
import Cookbook.Proofs.Page
import Cookbook.Proofs.Interfaces
import Cookbook.Proofs.Catalog.Reading
import Cookbook.Proofs.Json.Reader
import Cookbook.Proofs.Catalog.Listing
import Cookbook.Proofs.Build.Shape
import Cookbook.Proofs.Build.Whole
import Cookbook.Proofs.Response.Shown
import Cookbook.Proofs.Response.Portions
import Cookbook.Proofs.Build.Lookup
import Cookbook.Proofs.Operation.Settled
import Cookbook.Proofs.Catalog.Confinement
import Cookbook.Proofs.Catalog.Agreement
import Cookbook.Proofs.Graph.Apart
import Cookbook.Proofs.Build.Apart
import Cookbook.Proofs.Graph.Separate
import Cookbook.Proofs.Graph.Intact
import Cookbook.Proofs.Operation.Isolated
import Cookbook.Proofs.Operation.Refused
import Cookbook.Proofs.Build.Entries
import Cookbook.Proofs.Build.SameId
import Cookbook.Proofs.Operation.Scaling
import Cookbook.Proofs.Catalog.Order
import Cookbook.Proofs.Build.Aborted
import Cookbook.Proofs.Build.Absent
import Cookbook.Proofs.Graph.Gains
import Cookbook.Proofs.Operation.Totals
import Cookbook.Proofs.Sections
import Cookbook.Proofs.Text.Numeral
import Cookbook.Proofs.Portions
import Cookbook.Proofs.Files.Removal
import Cookbook.Proofs.Json.Digits
import Cookbook.Proofs.Catalog.BrokenIndex
import Cookbook.Proofs.Graph.Renaming
import Cookbook.Proofs.Build.Renaming
import Cookbook.Proofs.Settings.Session
import Cookbook.Proofs.Settings.Portions
