import RulesText.Catalog.View
import RulesText.Proofs.Spelling
import RulesText.Proofs.Printing
import RulesText.Proofs.ReadBack
import RulesText.Proofs.Resolution
import RulesText.Proofs.RoundTrip
import RulesText.Proofs.Reread
import RulesText.Proofs.CatalogRun
import RulesText.Proofs.CatalogReload
import RulesText.Proofs.Words
import RulesText.Proofs.Tidy
import RulesText.Proofs.Runs
import RulesText.Proofs.Numerals
import RulesText.Proofs.Lists
import RulesText.Proofs.Sentence
import RulesText.Proofs.Notes
import RulesText.Proofs.Findings
import RulesText.Proofs.Sources
import RulesText.Proofs.Amounts
import RulesText.Proofs.Members
import RulesText.Proofs.Scanned
import RulesText.Proofs.Texts
import RulesText.Proofs.Grammar
import RulesText.Proofs.Reorder
import RulesText.Proofs.MemberOrder
import RulesText.Proofs.Buffering
import RulesText.Proofs.GatedEffects
import RulesText.Proofs.CatalogLoading
import RulesText.Proofs.CounterConditions
import RulesText.Proofs.SilentEffects
import RulesText.Proofs.FirstFault
import RulesText.Proofs.Assembly
import RulesText.Proofs.RawTags
import RulesText.Proofs.EffectTexts
import RulesText.Proofs.AuditOrder
import RulesText.Proofs.Places
import RulesText.Proofs.OpenTags
import RulesText.Proofs.LastingEffects
import RulesText.Proofs.ImpliedMembers
import RulesText.Proofs.Positions
import RulesText.Proofs.Strangers
import RulesText.Proofs.Settings
import RulesText.Proofs.Integers
import RulesText.Proofs.Meanings
import RulesText.Proofs.NumericMembers
import RulesText.Proofs.Quantities
