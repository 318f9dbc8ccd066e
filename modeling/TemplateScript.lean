import TemplateScript.Engine
import TemplateScript.Main
import TemplateScript.Proofs.Rendering
import TemplateScript.Proofs.Streams
import TemplateScript.Proofs.ConfigFiles
import TemplateScript.Proofs.Actions
import TemplateScript.Proofs.Scripts
import TemplateScript.Proofs.Checks
import TemplateScript.Proofs.Runs
import TemplateScript.Proofs.Sessions
import TemplateScript.Proofs.Requests
import TemplateScript.Proofs.Decoding
import TemplateScript.Proofs.Truncation
import TemplateScript.Proofs.Statements
import TemplateScript.Proofs.Items
import TemplateScript.Proofs.Composition
import TemplateScript.Proofs.Readings
import TemplateScript.Proofs.Variants
import TemplateScript.Proofs.Alignment
import TemplateScript.Proofs.Readers
import TemplateScript.Proofs.Openers
import TemplateScript.Proofs.Selections
