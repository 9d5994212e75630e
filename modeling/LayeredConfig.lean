import LayeredConfig.Session
import LayeredConfig.Proofs.Template.Grammar
import LayeredConfig.Proofs.Template.Rewriting
import LayeredConfig.Proofs.Files.Below
import LayeredConfig.Proofs.Files.Formats
import LayeredConfig.Proofs.Files.Siblings
import LayeredConfig.Proofs.Lookup.CallGrammar
import LayeredConfig.Proofs.Lookup.CallSpacing
import LayeredConfig.Proofs.Lookup.Calls
import LayeredConfig.Proofs.Lookup.ChainOrder
import LayeredConfig.Proofs.Lookup.Expansions
import LayeredConfig.Proofs.Lookup.GuardOrder
import LayeredConfig.Proofs.Lookup.Rendering
import LayeredConfig.Proofs.Tree.Around
import LayeredConfig.Proofs.Tree.Circles
import LayeredConfig.Proofs.Tree.Declined
import LayeredConfig.Proofs.Tree.Decliners
import LayeredConfig.Proofs.Tree.Defaults
import LayeredConfig.Proofs.Tree.Endless
import LayeredConfig.Proofs.Tree.Inclusions
import LayeredConfig.Proofs.Tree.LastEntry
import LayeredConfig.Proofs.Tree.Layers
import LayeredConfig.Proofs.Tree.Reference
import LayeredConfig.Proofs.Tree.Spelling
import LayeredConfig.Proofs.Tree.UnderPath
import LayeredConfig.Proofs.Tree.Variables
import LayeredConfig.Proofs.Tree.Visited
import LayeredConfig.Proofs.Tree.Writers
import LayeredConfig.Proofs.Value.Merging
import LayeredConfig.Proofs.Value.Literal
import LayeredConfig.Proofs.Yaml.Entries
