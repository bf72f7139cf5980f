import Nominal.Tour

/-! The program prints the tour, one line after another. -/

def main : IO Unit :=
  Nominal.Tour.lines.forM fun line => IO.println (String.ofList line)
