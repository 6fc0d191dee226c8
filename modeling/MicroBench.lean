import MicroBench.Main
import MicroBench.Registers
import MicroBench.Flip.Round
import MicroBench.Odometer.Scan
import MicroBench.Odometer.Session
import MicroBench.Odometer.Cells
import MicroBench.Report.Sink
import MicroBench.Report.Reader
import MicroBench.Decimal.Numeral
import MicroBench.Fibonacci.Words
import MicroBench.Proofs.Arrangement
import MicroBench.Proofs.OdometerRun
import MicroBench.Proofs.OdometerCells
import MicroBench.Proofs.OdometerTour
import MicroBench.Proofs.FlipCount
import MicroBench.Proofs.SurveyReport
import MicroBench.Proofs.SurveyTotals
import MicroBench.Proofs.FlipExtension
import MicroBench.Proofs.FlipRun
import MicroBench.Survey.Course
import MicroBench.Proofs.SurveyBounds
import MicroBench.Proofs.SurveyPeaks
import MicroBench.Proofs.SurveyGrowth
import MicroBench.Proofs.SurveyPrefix
import MicroBench.Proofs.CommandGrammar
import MicroBench.Proofs.ReportDelivery
import MicroBench.Proofs.CommandPrefix
import MicroBench.Proofs.FibonacciValue
import MicroBench.Proofs.ProgramRun
import MicroBench.Proofs.FlipRounds
import MicroBench.Proofs.FlipHalting
import MicroBench.Proofs.FlipFronts
import MicroBench.Proofs.FibonacciBound
import MicroBench.Proofs.OdometerBlocks
import MicroBench.Proofs.FibonacciWords
import MicroBench.Proofs.ReportStream
