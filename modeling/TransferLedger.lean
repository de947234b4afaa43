import TransferLedger.Main
import TransferLedger.Source.Memory
import TransferLedger.Store.Memory
import TransferLedger.Proofs.Enrolment
import TransferLedger.Proofs.HexText
import TransferLedger.Proofs.Numeral
import TransferLedger.Proofs.Storable
import TransferLedger.Proofs.LawfulStore
import TransferLedger.Proofs.Recorded
import TransferLedger.Proofs.LawfulSource
import TransferLedger.Proofs.Intake
import TransferLedger.Proofs.TextLines
import TransferLedger.Proofs.WholeRun
import TransferLedger.Proofs.Rerun
import TransferLedger.Proofs.JsonText
import TransferLedger.Proofs.SnapshotFile
import TransferLedger.Proofs.DatabaseFile
import TransferLedger.Proofs.StoreAgreement
import TransferLedger.Proofs.Course
import TransferLedger.Proofs.Interruption
import TransferLedger.Proofs.Failure
import TransferLedger.Proofs.History
import TransferLedger.Proofs.LineAccount
import TransferLedger.Proofs.SignedNumeral
import TransferLedger.Proofs.Conservation
import TransferLedger.Proofs.FormText
import TransferLedger.Proofs.RecordText
import TransferLedger.Proofs.TransferLines
import TransferLedger.Proofs.OpenedAgain
import TransferLedger.Proofs.ReadThrough
import TransferLedger.Proofs.StopSignal
import TransferLedger.Proofs.Listing
import TransferLedger.Proofs.DigitCount
import TransferLedger.Proofs.RangeCheck
import TransferLedger.Proofs.Refusal
import TransferLedger.Proofs.LostTransfers
import TransferLedger.Proofs.Reports
import TransferLedger.Proofs.Chronicle
import TransferLedger.Proofs.StableOrder
import TransferLedger.Proofs.RowOrder
import TransferLedger.Proofs.FirstFault
import TransferLedger.Proofs.ReadRows
import TransferLedger.Proofs.NewestFirst
import TransferLedger.Proofs.Regrouping
import TransferLedger.Proofs.StringText
import TransferLedger.Proofs.JsonNumeral
import TransferLedger.Proofs.JsonGrammar
import TransferLedger.Proofs.PassedOver
import TransferLedger.Proofs.JsonDatum
import TransferLedger.Proofs.FormLayout
import TransferLedger.Proofs.FieldReaders
import TransferLedger.Proofs.TransferLayout
import TransferLedger.Proofs.HexReading
import TransferLedger.Proofs.Division
import TransferLedger.Proofs.RowContent
import TransferLedger.Proofs.NativeAmount
import TransferLedger.Proofs.RowLines
import TransferLedger.Proofs.WideWord
import TransferLedger.Proofs.Settings
import TransferLedger.Proofs.OptionScan
import TransferLedger.Proofs.Spelling
import TransferLedger.Proofs.Requests
import TransferLedger.Proofs.WholeInput
