/-
  ProbablePrime.Sample.Report — a sample as four lines of text.

      Random: <r>. Length: <bits> bits
      Prime (p): <p>. Length: <bits> bits, Digits: <digits>
      Prime (q): <q>. Length: <bits> bits, Digits: <digits>
      Prime (N): <N>. Length: <bits> bits, Digits: <digits>
-/
import ProbablePrime.Sample.Basic

namespace ProbablePrime

open Number (bitLength decimalDigits)

/-- A number with a label, to be written as one line. -/
structure ReportLine where
  /-- What the number is. -/
  label : String
  /-- The number. -/
  value : Nat
  /-- Whether the count of decimal digits is written too. -/
  showDigits : Bool
  deriving DecidableEq, Repr

/-- The text of a line: the label, the number, its length in bits, and its digits if wanted. -/
def ReportLine.text (line : ReportLine) : String :=
  let length := s!"{line.label}: {line.value}. Length: {bitLength line.value} bits"
  if line.showDigits then s!"{length}, Digits: {decimalDigits line.value}" else length

namespace Sample

/-- The lines of a sample, in the order in which they are printed. -/
def lines (sample : Sample) : List ReportLine :=
  [⟨"Random", sample.random, false⟩,
    ⟨"Prime (p)", sample.p, true⟩,
    ⟨"Prime (q)", sample.q, true⟩,
    ⟨"Prime (N)", sample.n, true⟩]

/-- The lines of a sample as one text. -/
def text (sample : Sample) : String := "\n".intercalate (sample.lines.map ReportLine.text)

/-- The lines of a sample as they are printed, each with a line break behind it. -/
def report (sample : Sample) : String :=
  String.join (sample.lines.map fun line => line.text ++ "\n")

/-- What is printed is the text of the sample and a line break. -/
theorem report_eq (sample : Sample) : sample.report = sample.text ++ "\n" := by
  have hjoin (a b c d : String) :
      "\n".intercalate [a, b, c, d] = a ++ "\n" ++ b ++ "\n" ++ c ++ "\n" ++ d := rfl
  simp only [text, lines, List.map_cons, List.map_nil, hjoin]
  simp [report, lines, String.join, String.append_assoc]

end Sample

end ProbablePrime
