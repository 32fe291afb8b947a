import ProcessChart.Command.Folder
import ProcessChart.Main
import ProcessChart.Run.Watch
import ProcessChart.Proofs.Defects
import ProcessChart.Proofs.Placement
import ProcessChart.Proofs.Admission
import ProcessChart.Proofs.Paths
import ProcessChart.Proofs.Visits
import ProcessChart.Proofs.Countdown
import ProcessChart.Proofs.LevelLaw
import ProcessChart.Proofs.LongestPath
import ProcessChart.Proofs.Descent
import ProcessChart.Proofs.SelfDelimiting
import ProcessChart.Proofs.WrittenValues
import ProcessChart.Proofs.Tags
import ProcessChart.Proofs.DocumentContent
import ProcessChart.Proofs.Escaping
import ProcessChart.Proofs.Lifecycles
import ProcessChart.Proofs.Renaming
import ProcessChart.Proofs.Retries
import ProcessChart.Proofs.PrintedJson
import ProcessChart.Proofs.PrintedProcess
import ProcessChart.Proofs.Preorder
import ProcessChart.Proofs.Chains
import ProcessChart.Proofs.Drafts
import ProcessChart.Proofs.DumpContent
import ProcessChart.Proofs.PictureMarkup
import ProcessChart.Proofs.DefectCounts
import ProcessChart.Proofs.Breaks
import ProcessChart.Proofs.Centring
import ProcessChart.Proofs.Numerals
import ProcessChart.Proofs.TextParts
import ProcessChart.Proofs.NumberTexts
import ProcessChart.Proofs.ContinuedJson5
import ProcessChart.Proofs.SharedSyntax
import ProcessChart.Proofs.EmbeddedProcess
import ProcessChart.Proofs.Walks
import ProcessChart.Proofs.Rows
import ProcessChart.Proofs.FlowOrder
import ProcessChart.Proofs.Routes
import ProcessChart.Proofs.Splits
import ProcessChart.Proofs.TreeCells
import ProcessChart.Proofs.AttributeValues
import ProcessChart.Proofs.Positions
import ProcessChart.Proofs.Fragments
import ProcessChart.Proofs.FilledLines
import ProcessChart.Proofs.Extents
import ProcessChart.Proofs.RunLogs
