import ViewClassifier.Averaging
import ViewClassifier.Binary32.Basic
import ViewClassifier.Binary32.Order
import ViewClassifier.Binary64
import ViewClassifier.Chart
import ViewClassifier.Classifier
import ViewClassifier.CommandLine.Arguments
import ViewClassifier.CommandLine.Help
import ViewClassifier.CommandLine.Program
import ViewClassifier.CommandLine.Reading
import ViewClassifier.Csv
import ViewClassifier.Decimal.Layout
import ViewClassifier.Decimal.Literal
import ViewClassifier.Decimal.Shortest
import ViewClassifier.Error
import ViewClassifier.Files.Fault
import ViewClassifier.Files.Tree
import ViewClassifier.Files.Words
import ViewClassifier.Image.Cropping
import ViewClassifier.Image.Picture
import ViewClassifier.Image.Resampling
import ViewClassifier.Json.Demand
import ViewClassifier.Json.Fault
import ViewClassifier.Json.Number
import ViewClassifier.Json.Object
import ViewClassifier.Json.Scan
import ViewClassifier.Json.Skipping
import ViewClassifier.Main
import ViewClassifier.MeanFile
import ViewClassifier.ModelFiles
import ViewClassifier.Npy.Decoding
import ViewClassifier.Npy.Fault
import ViewClassifier.Npy.Header
import ViewClassifier.Npy.Literal
import ViewClassifier.PictureFile
import ViewClassifier.Png.Chunk
import ViewClassifier.Png.Coding
import ViewClassifier.Png.Header
import ViewClassifier.Png.Stored
import ViewClassifier.Prediction
import ViewClassifier.Preprocessing
import ViewClassifier.Proofs.Batch
import ViewClassifier.Proofs.Binary32.Arithmetic
import ViewClassifier.Proofs.Binary32.NotANumber
import ViewClassifier.Proofs.Binary32.Order
import ViewClassifier.Proofs.Binary32.Packing
import ViewClassifier.Proofs.Image.Cropping
import ViewClassifier.Proofs.Image.Resizing
import ViewClassifier.Proofs.Image.Samples
import ViewClassifier.Proofs.Outcome
import ViewClassifier.Proofs.Preprocessing
import ViewClassifier.Proofs.Ranking.Best
import ViewClassifier.Proofs.Result
import ViewClassifier.Proofs.Rounding.Grid
import ViewClassifier.Proofs.Rounding.Operations
import ViewClassifier.Proofs.Rounding.Unpacked
import ViewClassifier.Proofs.RowNetwork
import ViewClassifier.Proofs.View.Decoding
import ViewClassifier.Proofs.Warnings
import ViewClassifier.Ranking
import ViewClassifier.Region
import ViewClassifier.Region.Reading
import ViewClassifier.Session
import ViewClassifier.Settings.Basic
import ViewClassifier.Settings.Reading
import ViewClassifier.Settings.Setup
import ViewClassifier.Table
import ViewClassifier.Tensor
import ViewClassifier.Text.Blank
import ViewClassifier.Text.Faceless
import ViewClassifier.Text.Quoted
import ViewClassifier.View.Bins
import ViewClassifier.View.Decoding
import ViewClassifier.View.Label
import ViewClassifier.Volume
import ViewClassifier.Proofs.ChannelOrder
import ViewClassifier.Proofs.Restoring
import ViewClassifier.Proofs.Rounding.Spacing
import ViewClassifier.Proofs.Binary32.Whole
import ViewClassifier.Proofs.Image.Bytes
import ViewClassifier.Proofs.Refusal
import ViewClassifier.Proofs.Json.Framing
import ViewClassifier.Proofs.Json.Numbers
import ViewClassifier.Proofs.Json.Values
import ViewClassifier.Proofs.Json.Skipping
import ViewClassifier.Proofs.Settings.Entries
import ViewClassifier.Proofs.Settings.Objects
import ViewClassifier.Proofs.Settings.Layers
import ViewClassifier.Proofs.Rounding.Exact
import ViewClassifier.Proofs.Binary32.Extent
import ViewClassifier.Proofs.Binary32.WholePart
import ViewClassifier.Proofs.Binary32.Value
import ViewClassifier.Proofs.Image.Regions
import ViewClassifier.Proofs.Binary32.Remainder
import ViewClassifier.Proofs.Binary32.Quotient
import ViewClassifier.Proofs.View.Bins
import ViewClassifier.Proofs.Binary32.Extremes
import ViewClassifier.Proofs.View.MixedAngles
import ViewClassifier.Proofs.Image.TenCrops
import ViewClassifier.Proofs.Rounding.Signed
import ViewClassifier.Proofs.Binary32.Signed
import ViewClassifier.Proofs.Binary32.Intervals
import ViewClassifier.Proofs.Image.Windows
import ViewClassifier.Proofs.Image.UnitSamples
import ViewClassifier.Proofs.Image.OwnSize
import ViewClassifier.Proofs.Image.Channels
import ViewClassifier.Proofs.Ranking.Greatest
import ViewClassifier.Proofs.NetworkInput
import ViewClassifier.Proofs.View.Circle
import ViewClassifier.Proofs.View.Scoring
import ViewClassifier.Proofs.View.MixedRows
import ViewClassifier.Proofs.View.JointLabels
import ViewClassifier.Proofs.UnitAverages
import ViewClassifier.Proofs.View.BackgroundLabels
import ViewClassifier.Proofs.View.TripleLabels
import ViewClassifier.Proofs.Image.GreyLevels
import ViewClassifier.Proofs.Image.GreyPictures
import ViewClassifier.Proofs.Decimal.Neighbourhoods
import ViewClassifier.Proofs.Decimal.Rounded
import ViewClassifier.Proofs.Text.Digits
import ViewClassifier.Proofs.Text.Pieces
import ViewClassifier.Proofs.Decimal.Numerals
import ViewClassifier.Proofs.Rounding.Packed
import ViewClassifier.Proofs.Binary32.Forms
import ViewClassifier.Proofs.Binary32.ValueOrder
import ViewClassifier.Proofs.Decimal.ReadingBack
import ViewClassifier.Proofs.Region.Reading
import ViewClassifier.Proofs.Region.Corners
import ViewClassifier.Proofs.Csv
import ViewClassifier.Proofs.Binary32.Words
import ViewClassifier.Proofs.Npy.Heads
import ViewClassifier.Proofs.Npy.Payloads
import ViewClassifier.Proofs.MeanFile
import ViewClassifier.Proofs.Acceptance
import ViewClassifier.Proofs.Files.Naming
import ViewClassifier.Proofs.ModelFiles
import ViewClassifier.Proofs.Ranking.Members
import ViewClassifier.Proofs.Binary64.Places
import ViewClassifier.Proofs.Chart.Pixels
import ViewClassifier.Proofs.Chart.Top
import ViewClassifier.Proofs.Chart.Curve
