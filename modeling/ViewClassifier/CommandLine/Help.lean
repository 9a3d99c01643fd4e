/-!
# Help

The texts that tell the arguments and the version.
-/

set_option autoImplicit false

namespace ViewClassifier.CommandLine

def about : String :=
  "Run a pretrained region-based CNN classifier on an image through onnxruntime and plot its " ++
    "class probabilities."

def argumentHelp : List (String × String) :=
  [("    --config <FILE>", "JSON run configuration; flags below override its values"),
    ("    --model <FILE>", "ONNX model definition"),
    ("    --weights <FILE>", "External weights file next to the model definition"),
    ("    --image <FILE>", "Image to classify"),
    ("    --mean <FILE>", "Per-channel mean (.npy)"),
    ("    --out-dir <DIR>", "Directory the plots are written to"),
    ("    --no-oversample", "Classify a single center crop instead of averaging ten crops"),
    ("    --region <BOX>", "Classify only this region of the image: x1,y1,x2,y2"),
    ("    --top-k <K>", "Number of most probable classes to log [default: 5]"),
    ("    --view", "Decode the output as class x azimuth bins"),
    ("    --save-csv", "Also write the probability vectors as CSV"),
    ("-h, --help", "Print help"),
    ("-V, --version", "Print version")]

def helpLine (spelling purpose : String) : String :=
  let width := (argumentHelp.map (·.1.length)).foldl max 0
  "  " ++ spelling ++ String.ofList (List.replicate (width - spelling.length) ' ') ++ "  " ++
    purpose ++ "\n"

def helpText : String :=
  about ++ "\n\nUsage: rcnn-classify [OPTIONS]\n\nOptions:\n" ++
    String.join (argumentHelp.map fun (spelling, purpose) => helpLine spelling purpose)

def versionText : String :=
  "rcnn-classify-ort 0.1.0\n"

end ViewClassifier.CommandLine
