import EggLanguage.Main
import EggLanguage.Proofs.Language
import EggLanguage.Proofs.Spelling
import EggLanguage.Proofs.TrailingComma
import EggLanguage.Proofs.Blame
import EggLanguage.Proofs.Locality
import EggLanguage.Proofs.TypedLines
import EggLanguage.Proofs.Elsewhere
import EggLanguage.Proofs.Isolation
import EggLanguage.Proofs.Layout
import EggLanguage.Proofs.RunningOut
import EggLanguage.Proofs.Stopping
import EggLanguage.Proofs.Histories
import EggLanguage.Proofs.Conversation
import EggLanguage.Proofs.Reports
import EggLanguage.Proofs.Bookkeeping
import EggLanguage.Proofs.OneByOne
import EggLanguage.Proofs.ViablePrefix
import EggLanguage.Proofs.RenamedParameters
import EggLanguage.Proofs.Numerals
import EggLanguage.Proofs.Slices
import EggLanguage.Proofs.OnePiece
import EggLanguage.Proofs.Twins
import EggLanguage.Proofs.Extension
import EggLanguage.Proofs.Calls
import EggLanguage.Proofs.Unread
import EggLanguage.Proofs.Operators
import EggLanguage.Proofs.SourceFiles
import EggLanguage.Proofs.Ancestry
import EggLanguage.Proofs.Progress
import EggLanguage.Proofs.Surroundings
