import Scaffold.Main
import Scaffold.Proofs.Commit.Atomicity
import Scaffold.Proofs.Commit.Effect
import Scaffold.Proofs.Commit.Files
import Scaffold.Proofs.Registration.Splice
import Scaffold.Proofs.Registration.Occurrences
import Scaffold.Proofs.Plan.Preview
import Scaffold.Proofs.Plan.Session
import Scaffold.Proofs.Plan.Sparing
import Scaffold.Proofs.Commit.Delivery
import Scaffold.Proofs.Model.Grammar
import Scaffold.Proofs.Layout.Outline
import Scaffold.Proofs.Text.Words
import Scaffold.Proofs.Template.Forward
import Scaffold.Proofs.Model.Outline
import Scaffold.Proofs.Model.Generated
import Scaffold.Proofs.Model.Nesting
import Scaffold.Proofs.Model.Readback
import Scaffold.Proofs.Model.FieldToken
import Scaffold.Proofs.Template.Substitution
import Scaffold.Proofs.Registration.Insertion
import Scaffold.Proofs.Registration.Series
import Scaffold.Proofs.Report.DryRun
import Scaffold.Proofs.Plan.Interleaving
import Scaffold.Proofs.Commit.Outcome
import Scaffold.Proofs.Registration.Outcome
import Scaffold.Proofs.Template.Spacing
import Scaffold.Proofs.Model.Spacing
import Scaffold.Proofs.Model.Parts
import Scaffold.Proofs.Template.Dependence
import Scaffold.Proofs.Model.Conformances
import Scaffold.Proofs.Model.Fieldwise
import Scaffold.Proofs.Model.Refusal
import Scaffold.Proofs.Template.Endings
import Scaffold.Proofs.CommandLine.Trailing
import Scaffold.Proofs.Plan.Shown
import Scaffold.Proofs.Text.Upper
import Scaffold.Proofs.Model.Renaming
import Scaffold.Proofs.Report.Warnings
import Scaffold.Proofs.Layout.Blocks
import Scaffold.Proofs.Registration.Margin
