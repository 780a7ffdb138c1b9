import ShaderEmbed.Compile.Scripted
import ShaderEmbed.Config.Document
import ShaderEmbed.Main
import ShaderEmbed.Proofs.Artifact.FirstFree
import ShaderEmbed.Proofs.Artifact.Reading
import ShaderEmbed.Proofs.Artifact.Update
import ShaderEmbed.Proofs.Compile.Traceless
import ShaderEmbed.Proofs.Config.Accepted
import ShaderEmbed.Proofs.Config.Discovery
import ShaderEmbed.Proofs.Config.ObjectForm
import ShaderEmbed.Proofs.Fragment.Balance
import ShaderEmbed.Proofs.Fragment.Derivation
import ShaderEmbed.Proofs.Fragment.LineEnds
import ShaderEmbed.Proofs.Fragment.Mirror
import ShaderEmbed.Proofs.Fragment.Relocation
import ShaderEmbed.Proofs.Fragment.Seam
import ShaderEmbed.Proofs.Fragment.Stack
import ShaderEmbed.Proofs.Fragment.Trail
import ShaderEmbed.Proofs.Path.Location
import ShaderEmbed.Proofs.Project.Embedding
import ShaderEmbed.Proofs.Project.InTurn
import ShaderEmbed.Proofs.Project.OneLine
import ShaderEmbed.Proofs.Project.Order
import ShaderEmbed.Proofs.Run.Course
import ShaderEmbed.Proofs.Text.Location
