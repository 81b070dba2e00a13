import XGrey.Lib.CRuntime
import XGrey.Lib.ArrayShift
import XGrey.Lib.Lexicographic
import XGrey.Lib.SortedSeq
import XGrey.Lib.PrefixMap
import XGrey.Lib.StepRun
import XGrey.Lib.Guarantee
import XGrey.Lib.RequestReply
import XGrey.Lib.SharedLink
import XGrey.Lib.ShiftRegister
import XGrey.Protocol
import XGrey.Text
import XGrey.Crc32
import XGrey.Tuple
import XGrey.Bisearch
import XGrey.TupleSpace
import XGrey.TupleLayout
import XGrey.TupleExpire
import XGrey.TupleAdd
import XGrey.TupleCheck
import XGrey.FullPool
import XGrey.Greylist
import XGrey.IpList
import XGrey.IpRules
import XGrey.EmailDomain
import XGrey.Server
import XGrey.Receive
import XGrey.Sanitize
import XGrey.Filter
import XGrey.TypeGreylist
import XGrey.Dotted
import XGrey.WhitelistLoad
import XGrey.ServerRun
import XGrey.StoreSafety
import XGrey.GreylistRun
import XGrey.RuleFiles
import XGrey.Verdicts
import XGrey.RuleRun
import XGrey.Clients
import XGrey.Responses
import XGrey.ClientRuns
import XGrey.RequestSteps
import XGrey.PoolSlots
import XGrey.Whitelisting
import XGrey.FailOpen
import XGrey.IplistPackets
import XGrey.StaleBuffer
import XGrey.StaleBytes
import XGrey.AddressLists
import XGrey.Formats
import XGrey.AddressDump
import XGrey.IplistDump
import XGrey.LiveTuples
import XGrey.WhitelistDump
import XGrey.LongAddresses
import XGrey.TofromFile
import XGrey.IplistFile
import XGrey.IplistTable
import XGrey.TupleListings
import XGrey.StageCounts
import XGrey.WhitelistCount
import XGrey.SmcSender
import XGrey.PolicyBuffer
import XGrey.PolicyRequests
import XGrey.PolicyLines
import XGrey.Children
import XGrey.ArraySearch
import XGrey.CrcRegister
import XGrey.SweepEffect
import XGrey.DottedScan
import XGrey.Lib.FailureWindow
import XGrey.Monitor
import XGrey.Earned
import XGrey.Retries
import XGrey.Statistics
import XGrey.Restart
import XGrey.MainLoop
import XGrey.Interference
import XGrey.RuleHistory
import XGrey.Console
import XGrey.ConsoleAnswers
import XGrey.ConsoleSession
import XGrey.MailServers
import XGrey.MailSystem
import XGrey.RuledGreylist
