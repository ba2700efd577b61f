import WebTransport.Support.Run
import WebTransport.Support.FifoLock
import WebTransport.Support.Indexed
import WebTransport.Support.Blocks
import WebTransport.Support.WaitFor
import WebTransport.Support.Settling
import WebTransport.Errors
import WebTransport.Errors.Contract
import WebTransport.Errors.Hierarchy
import WebTransport.Errors.Reason
import WebTransport.Wrapper.Machine
import WebTransport.Wrapper.OneCall
import WebTransport.Wrapper.Moves
import WebTransport.Wrapper.Results
import WebTransport.Wrapper.Exclusion
import WebTransport.Wrapper.Token
import WebTransport.Wrapper.Closes
import WebTransport.Wrapper.CloseDelivery
import WebTransport.Wrapper.CloseCode
import WebTransport.Wrapper.Asked
import WebTransport.Wrapper.LocalClose
import WebTransport.Wrapper.Interrupted
import WebTransport.Wrapper.Queue
import WebTransport.Wrapper.WaitFor
import WebTransport.Wrapper.Line
import WebTransport.Wrapper.Draining
import WebTransport.Wrapper.Guard
import WebTransport.Wrapper.Settling
import WebTransport.Wrapper.Serial
import WebTransport.SendStream.Model
import WebTransport.SendStream.Results
import WebTransport.SendStream.Raises
import WebTransport.SendStream.FinishAfterReset
import WebTransport.SendStream.TerminalAction
import WebTransport.SendStream.Contiguity
import WebTransport.SendStream.CallOrder
import WebTransport.SendStream.Progress
import WebTransport.SendStream.Synced
import WebTransport.SendStream.Priority
import WebTransport.RecvStream.Model
import WebTransport.RecvStream.Results
import WebTransport.RecvStream.Raises
import WebTransport.RecvStream.Cursor
import WebTransport.RecvStream.ReadMode
import WebTransport.RecvStream.Progress
import WebTransport.RecvStream.EndOfStream
import WebTransport.RecvStream.CleanExit
import WebTransport.RecvStream.Undisturbed
import WebTransport.RecvStream.ReadExactly
import WebTransport.RecvStream.Kept
import WebTransport.Streams.Closing
import WebTransport.Streams.Closed
import WebTransport.Streams.Draining
import WebTransport.Streams.Left
import WebTransport.Streams.WaitClosed
import WebTransport.Streams.Ends
import WebTransport.Streams.EndToEnd
import WebTransport.Streams.PeerCodes
import WebTransport.Streams.Settling
import WebTransport.Streams.Serial
import WebTransport.Session.Model
import WebTransport.Session.Results
import WebTransport.Session.Raises
import WebTransport.Session.Handout
import WebTransport.Connection.Model
import WebTransport.Connection.Ending
import WebTransport.Connection.Finishing
import WebTransport.Server.Model
import WebTransport.Server.Handout
import WebTransport.Server.Finishing
import WebTransport.Server.Attempts
import WebTransport.Client.Model
import WebTransport.Client.Raises
import WebTransport.Client.Pinning
import WebTransport.Client.Finishing
import WebTransport.Peers.Model
import WebTransport.Peers.Asked
import WebTransport.Peers.Handover
import WebTransport.Peers.Closes
import WebTransport.Peers.Streams
import WebTransport.Peers.Finishing
import WebTransport.Handshake.Model
import WebTransport.Handshake.Decision
import WebTransport.Handshake.Agreement
