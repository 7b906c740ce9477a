import Reckoner.Main
import Reckoner.Proofs.Appearance
import Reckoner.Proofs.Assignments
import Reckoner.Proofs.Bracketed
import Reckoner.Proofs.Classes
import Reckoner.Proofs.Detection
import Reckoner.Proofs.Diagrams
import Reckoner.Proofs.FlatScan
import Reckoner.Proofs.Foreigners
import Reckoner.Proofs.Histories
import Reckoner.Proofs.Indifference
import Reckoner.Proofs.Inlining
import Reckoner.Proofs.Joining
import Reckoner.Proofs.Levels
import Reckoner.Proofs.Numerals
import Reckoner.Proofs.Program
import Reckoner.Proofs.Records
import Reckoner.Proofs.Rereading
import Reckoner.Proofs.Shortest
import Reckoner.Proofs.Splitting
import Reckoner.Proofs.Unambiguous
import Reckoner.Session
