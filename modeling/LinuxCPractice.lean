import LinuxCPractice.PollSocket.LookingAfter
import LinuxCPractice.PollSocket.Echo
import LinuxCPractice.PollSocket.Draining
import LinuxCPractice.PollSocket.Waiting
import LinuxCPractice.PollSocket.Optimizing
import LinuxCPractice.PollSocket.Protocol
import LinuxCPractice.PollSocket.Admission
import LinuxCPractice.ForkPipe.Delivery
import LinuxCPractice.ForkPipe.Reaping
import LinuxCPractice.ForkPipe.Deadlock
import LinuxCPractice.ForkPipe.Plumbing
import LinuxCPractice.ForkPipe.Arguments
import LinuxCPractice.ForkPipe.Deallocation
import LinuxCPractice.ForkPipe.Closing
import LinuxCPractice.ForkPipe.Ending
import LinuxCPractice.SocketTcp.Descriptors
import LinuxCPractice.SocketTcp.Reply
import LinuxCPractice.SocketTcp.Options
import LinuxCPractice.SocketTcp.Exhaustion
import LinuxCPractice.SocketTcp.Settling
import LinuxCPractice.SocketUdp.Replies
import LinuxCPractice.SocketUdp.Exchange
import LinuxCPractice.AddressSelection
import LinuxCPractice.PeerSelection
import LinuxCPractice.MessageText
import LinuxCPractice.ConditionVariable.Deadline
import LinuxCPractice.ConditionVariable.Returning
import LinuxCPractice.SemDetached.Destroy
import LinuxCPractice.SemDetached.Progress
import LinuxCPractice.MessageQueue.Delivery
import LinuxCPractice.MessageQueue.Layout
import LinuxCPractice.MessageQueue.Ending
import LinuxCPractice.Fifo.Imbalance
import LinuxCPractice.Fifo.Ending
import LinuxCPractice.Roles
import LinuxCPractice.ThreadMutex.Counter
import LinuxCPractice.ThreadMutex.Exiting
import LinuxCPractice.DisplayClock
import LinuxCPractice.StackTrace.Command
import LinuxCPractice.SignalHandler.Ending
import LinuxCPractice.SignalHandler.Reports
import LinuxCPractice.SignalHandler.Termination
import LinuxCPractice.SortAndSearch
import LinuxCPractice.SortAndSearch.Main
import LinuxCPractice.BinarySearchTree.Order
import LinuxCPractice.BinarySearchTree.Ownership
import LinuxCPractice.HashSearch
import LinuxCPractice.FileIo
import LinuxCPractice.PollTimer
import LinuxCPractice.StringTokens
import LinuxCPractice.Tailq
import LinuxCPractice.Getopt
import LinuxCPractice.Popen
import LinuxCPractice.FileStream
